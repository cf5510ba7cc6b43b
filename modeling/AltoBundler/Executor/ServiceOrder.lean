import AltoBundler.Executor.LocalSenderManager

/-!
# The order in which `getWallet` calls are served

async-mutex's semaphore queues the callers of `acquire` in call order and hands
each free permit to the first of them.  Together with the manager's own steps
this serves the `getWallet` calls first come, first served, whatever the
callers push: at every step the calls still waiting in `acquire` are the latest
ones, and the semaphore's queue lists exactly them, oldest first
(`getWallet_served_in_order`).  No call is ever served while an earlier one
waits, and each release wakes the oldest waiting call.  As each `pushWallet`
releases a permit, a call with `k` calls queued before it is served within
`k + 1` of them (`getWallet_served_after_pushes`).

## Strategy

`InCallOrder` says that the tasks are a prefix with no waiting task followed by
waiting tasks only, and that the queue is the range of the latter's indices.

* A release wakes a prefix of that range (`Semaphore.dispatchQueue_range'`),
  and `grant` turns exactly those tasks into granted ones (`grant_range'`).
* `acquire` grants at once only when nobody waits, and otherwise appends the
  next index to the queue.
* `resume` and `pushWallet` overwrite only tasks that are not waiting, which
  lie in the prefix (`InCallOrder.set`).

The prefix's length, `served`, never decreases, and a `pushWallet` raises it
by one while a call waits (`served_run`).
-/

namespace AltoBundler.Executor

/-! ## The semaphore over consecutive tasks -/

/-- `_dispatchQueue` over a queue of consecutive tasks hands a permit to each of
the first `min value count`. -/
theorem Semaphore.dispatchQueue_range' : ∀ (value first count : Nat),
    Semaphore.dispatchQueue value (List.range' first count) =
      (⟨value - min value count, List.range' (first + min value count) (count - min value count)⟩,
        List.range' first (min value count))
  | 0, first, count => by simp [Semaphore.dispatchQueue]
  | value + 1, first, 0 => by simp [Semaphore.dispatchQueue]
  | value + 1, first, count + 1 => by
      have hmin : min (value + 1) (count + 1) = min value count + 1 := Nat.succ_min_succ value count
      rw [List.range'_succ, Semaphore.dispatchQueue, Semaphore.dispatchQueue_range' value (first + 1) count,
        hmin, List.range'_succ first (min value count)]
      simp only [Nat.add_sub_add_right, Nat.one_mul, Nat.add_assoc, Nat.add_comm 1]

/-- Granting the first `count` of the waiting tasks that follow `front`. -/
theorem grant_range' : ∀ (front : List Task) {count waiting : Nat}, count ≤ waiting →
    grant (front ++ List.replicate waiting .waiting) (List.range' front.length count) =
      front ++ List.replicate count .granted ++ List.replicate (waiting - count) .waiting
  | front, 0, waiting, _ => by simp [grant]
  | _, _ + 1, 0, h => absurd h (Nat.not_succ_le_zero _)
  | front, count + 1, waiting + 1, h => by
      have hnext := grant_range' (front ++ [.granted]) (Nat.le_of_succ_le_succ h)
      rw [List.length_append, List.length_singleton] at hnext
      rw [List.range'_succ, grant, List.foldl_cons, ← grant, List.replicate_succ,
        List.set_append_right _ _ le_rfl, Nat.sub_self, List.set_cons_zero, List.append_cons, hnext]
      simp [List.replicate_succ]

/-! ## The invariant -/

namespace LocalSenderManager

/-- The tasks are `front`, none of them waiting, then `waiting` waiting tasks,
which the semaphore queues in call order. -/
def InCallOrder (semaphore : Semaphore) (tasks : List Task) : Prop :=
  ∃ front waiting, tasks = front ++ List.replicate waiting .waiting ∧ Task.waiting ∉ front ∧
    semaphore.queue = List.range' front.length waiting

section InCallOrder

variable {semaphore : Semaphore} {tasks : List Task}

/-- Which tasks wait: those of the suffix. -/
theorem getElem?_eq_waiting_iff {front : List Task} {waiting : Nat} (hfront : Task.waiting ∉ front)
    (task : Nat) :
    (front ++ List.replicate waiting .waiting)[task]? = some .waiting ↔
      front.length ≤ task ∧ task < front.length + waiting := by
  by_cases hlt : task < front.length
  · rw [List.getElem?_append_left hlt]
    exact ⟨fun h => absurd (List.getElem?_mem h) hfront, fun h => absurd h.1 (Nat.not_le.2 hlt)⟩
  · rw [List.getElem?_append_right (Nat.le_of_not_lt hlt), List.getElem?_replicate]
    split <;> simp <;> omega

theorem InCallOrder.queued (h : InCallOrder semaphore tasks) : Queued semaphore tasks := by
  obtain ⟨front, waiting, rfl, hfront, hqueue⟩ := h
  refine ⟨fun task htask => ?_, hqueue ▸ List.nodup_range' _ _⟩
  rw [hqueue, List.mem_range'_1] at htask
  exact (getElem?_eq_waiting_iff hfront task).2 htask

/-- Overwriting a task that does not wait with one that does not wait either. -/
theorem InCallOrder.set (h : InCallOrder semaphore tasks) {task : Nat} {t x : Task}
    (ht : tasks[task]? = some t) (hne : t ≠ .waiting) (hx : x ≠ .waiting) :
    InCallOrder semaphore (tasks.set task x) := by
  obtain ⟨front, waiting, rfl, hfront, hqueue⟩ := h
  have hlt : task < front.length := by
    by_contra hge
    rw [List.getElem?_append_right (Nat.le_of_not_lt hge), List.getElem?_replicate] at ht
    split at ht
    · exact hne (Option.some.inj ht).symm
    · cases ht
  refine ⟨front.set task x, waiting, List.set_append_left _ _ hlt, fun hmem => ?_,
    by rw [List.length_set]; exact hqueue⟩
  rcases List.mem_or_eq_of_mem_set hmem with hmem | hmem
  exacts [hfront hmem, hx hmem.symm]

/-- A release grants the oldest waiting tasks. -/
theorem InCallOrder.release (h : InCallOrder semaphore tasks) :
    InCallOrder semaphore.release.1 (grant tasks semaphore.release.2) := by
  obtain ⟨front, waiting, rfl, hfront, hqueue⟩ := h
  simp only [Semaphore.release, hqueue, Semaphore.dispatchQueue_range']
  rw [grant_range' front (min_le_right _ _)]
  refine ⟨front ++ List.replicate (min (semaphore.value + 1) waiting) .granted, _, rfl, fun hmem => ?_,
    by rw [List.length_append, List.length_replicate]⟩
  rcases List.mem_append.1 hmem with hmem | hmem
  exacts [hfront hmem, Task.noConfusion (List.eq_of_mem_replicate hmem)]

/-- `acquire` grants at once only when nobody waits, and queues the new task
after the waiting ones otherwise. -/
theorem InCallOrder.acquire (h : InCallOrder semaphore tasks) :
    InCallOrder (semaphore.acquire tasks.length).1
      (tasks ++ [if (semaphore.acquire tasks.length).2 then Task.granted else Task.waiting]) := by
  obtain ⟨front, waiting, rfl, hfront, hqueue⟩ := h
  rcases Semaphore.acquire_cases semaphore (front ++ List.replicate waiting Task.waiting).length with
    ⟨heq, hempty, -⟩ | heq <;> rw [heq]
  · obtain rfl : waiting = 0 := List.range'_eq_nil.1 (hqueue ▸ hempty)
    exact ⟨front ++ [.granted], 0, by simp, by simp [hfront], rfl⟩
  · refine ⟨front, waiting + 1, by simp [List.replicate_succ'], hfront, ?_⟩
    simp [hqueue, List.range'_concat]

end InCallOrder

variable {s : LocalSenderManager}

theorem InCallOrder.releaseSemaphore (h : InCallOrder s.semaphore s.tasks) :
    InCallOrder s.releaseSemaphore.semaphore s.releaseSemaphore.tasks :=
  h.release

theorem InCallOrder.step (h : InCallOrder s.semaphore s.tasks) :
    ∀ event, InCallOrder (s.step event).semaphore (s.step event).tasks
  | .getWallet => h.acquire
  | .resume task => by
      show InCallOrder (s.resume task).semaphore (s.resume task).tasks
      rcases resume_cases s task with ⟨hgranted, _, _, -, heq⟩ | ⟨hgranted, -, heq⟩ | heq <;> rw [heq]
      · exact h.set hgranted (by simp) (by simp)
      · have hkept : s.releaseSemaphore.tasks[task]? = some .granted := by
          rw [releaseSemaphore_getElem? (h.queued.not_mem hgranted (by simp))]
          exact hgranted
        exact (InCallOrder.releaseSemaphore h).set hkept (by simp) (by simp)
      · exact h
  | .pushWallet task wallet => by
      show InCallOrder (s.pushWallet task wallet).semaphore (s.pushWallet task wallet).tasks
      unfold pushWallet
      refine InCallOrder.releaseSemaphore ?_
      dsimp only
      split
      · exact h.set ‹_› (by simp) (by simp)
      · exact h

theorem InCallOrder.run : ∀ (events : List SenderEvent) {s : LocalSenderManager},
    InCallOrder s.semaphore s.tasks → InCallOrder (s.run events).semaphore (s.run events).tasks
  | [], _, h => h
  | event :: events, _, h => InCallOrder.run events (h.step event)

/-- For every configuration and every interleaving of `getWallet`, resumptions
and `pushWallet` calls, whatever wallets are pushed: the semaphore's queue is
exactly the `getWallet` calls still waiting in `acquire`, in call order, and a
call waits only while every later call waits too.  So no call is served while
an earlier one is waiting, and each released permit goes to the oldest waiting
call. -/
theorem getWallet_served_in_order (config : SenderManagerConfig) (events : List SenderEvent) :
    let s := (createLocalSenderManager config).run events
    s.semaphore.queue = (List.range s.tasks.length).filter (fun task => s.tasks[task]? = some .waiting) ∧
      ∀ i j, i ≤ j → j < s.tasks.length → s.tasks[i]? = some .waiting → s.tasks[j]? = some .waiting := by
  obtain ⟨front, waiting, htasks, hfront, hqueue⟩ :=
    InCallOrder.run events (s := createLocalSenderManager config) ⟨[], 0, rfl, List.not_mem_nil _, rfl⟩
  intro s
  have hiff : ∀ task, s.tasks[task]? = some .waiting ↔
      front.length ≤ task ∧ task < front.length + waiting :=
    htasks ▸ getElem?_eq_waiting_iff hfront
  have hlength : s.tasks.length = front.length + waiting := by simp [s, htasks]
  refine ⟨?_, fun i j hij hj hi => (hiff j).2 ⟨((hiff i).1 hi).1.trans hij, hlength ▸ hj⟩⟩
  -- the served calls come first and none of them waits; all calls after them wait
  have hserved : (List.range' 0 front.length).filter (fun task => s.tasks[task]? = some .waiting) = [] :=
    List.filter_eq_nil_iff.2 fun task htask => by
      rw [List.mem_range'_1] at htask
      simpa using fun h => absurd ((hiff task).1 h).1 (by omega)
  have hwaiting : (List.range' front.length waiting).filter (fun task => s.tasks[task]? = some .waiting) =
      List.range' front.length waiting :=
    List.filter_eq_self.2 fun task htask => by
      rw [List.mem_range'_1] at htask
      simpa using (hiff task).2 (by omega)
  rw [hqueue, hlength, Nat.add_comm, List.range_eq_range', ← List.range'_append_1, List.filter_append, hserved,
    Nat.zero_add, hwaiting, List.nil_append]

/-! ## No call waits for ever -/

/-- The number of `getWallet` calls that no longer wait in `acquire`. -/
def served (s : LocalSenderManager) : Nat :=
  s.tasks.length - s.semaphore.queue.length

theorem grant_length : ∀ (tasks : List Task) (granted : List Nat),
    (grant tasks granted).length = tasks.length
  | _, [] => rfl
  | tasks, task :: granted => by
      rw [grant, List.foldl_cons, ← grant, grant_length, List.length_set]

/-- A release with a call waiting hands out at least one permit. -/
theorem Semaphore.release_granted_pos {semaphore : Semaphore} (h : semaphore.queue ≠ []) :
    0 < semaphore.release.2.length := by
  obtain ⟨value, _ | ⟨task, queue⟩⟩ := semaphore
  · exact absurd rfl h
  · simp [Semaphore.release, Semaphore.dispatchQueue]

/-- A release serves one more call for each permit it hands out. -/
theorem served_releaseSemaphore (hle : s.semaphore.queue.length ≤ s.tasks.length) :
    s.releaseSemaphore.served = s.served + s.semaphore.release.2.length := by
  have hlength := congrArg List.length s.semaphore.release_spec.1
  rw [List.length_append] at hlength
  simp only [served, releaseSemaphore, grant_length]
  omega

theorem served_getWallet (hle : s.semaphore.queue.length ≤ s.tasks.length) :
    s.served ≤ s.getWallet.served ∧ s.tasks.length ≤ s.getWallet.tasks.length := by
  rcases Semaphore.acquire_cases s.semaphore s.tasks.length with ⟨heq, hempty, -⟩ | heq <;>
    simp only [served, getWallet, heq, if_true, if_false, List.length_append, List.length_singleton,
      List.length_nil, Bool.false_eq_true] <;> omega

theorem served_resume (hle : s.semaphore.queue.length ≤ s.tasks.length) (task : Nat) :
    s.served ≤ (s.resume task).served ∧ (s.resume task).tasks.length = s.tasks.length := by
  rcases resume_cases s task with ⟨-, _, _, -, heq⟩ | ⟨-, -, heq⟩ | heq <;> rw [heq]
  · exact ⟨by simp [served], List.length_set _ _ _⟩
  · -- the failing call releases its permit
    have hrelease := served_releaseSemaphore hle
    refine ⟨?_, by simp [releaseSemaphore, grant_length]⟩
    simp only [served, releaseSemaphore, grant_length, List.length_set] at hrelease ⊢
    omega
  · exact ⟨le_rfl, rfl⟩

theorem served_pushWallet (hle : s.semaphore.queue.length ≤ s.tasks.length) (task : Nat)
    (wallet : Account) :
    min s.tasks.length (s.served + 1) ≤ (s.pushWallet task wallet).served ∧
      (s.pushWallet task wallet).tasks.length = s.tasks.length := by
  unfold pushWallet
  generalize hpushed : { s with
    availableWallets :=
      if wallet ∈ s.availableWallets then s.availableWallets else s.availableWallets ++ [wallet]
    tasks := if s.tasks[task]? = some (Task.holding wallet) then s.tasks.set task .returned else s.tasks } = pushed
  have hlength : pushed.tasks.length = s.tasks.length := by
    rw [← hpushed]; dsimp only; split <;> simp
  have hqueue : pushed.semaphore = s.semaphore := by rw [← hpushed]
  have hrelease := served_releaseSemaphore (s := pushed) (by rw [hlength, hqueue]; exact hle)
  refine ⟨?_, by simp only [releaseSemaphore, grant_length, hlength]⟩
  simp only [served, hlength, hqueue] at hrelease ⊢
  -- with a call waiting the release serves it; otherwise every call is served
  by_cases hempty : s.semaphore.queue = []
  · rw [hempty, List.length_nil, Nat.sub_zero] at hrelease ⊢
    omega
  · have := Semaphore.release_granted_pos hempty
    omega

/-- The number of `pushWallet` calls among `events`. -/
def pushCount : List SenderEvent → Nat
  | [] => 0
  | .pushWallet _ _ :: events => pushCount events + 1
  | _ :: events => pushCount events

theorem InCallOrder.queue_length_le (h : InCallOrder s.semaphore s.tasks) :
    s.semaphore.queue.length ≤ s.tasks.length := by
  obtain ⟨front, waiting, htasks, -, hqueue⟩ := h
  simp [htasks, hqueue]

theorem served_step (hle : s.semaphore.queue.length ≤ s.tasks.length) :
    ∀ event, s.tasks.length ≤ (s.step event).tasks.length ∧
      min s.tasks.length (s.served + pushCount [event]) ≤ (s.step event).served
  | .getWallet =>
      let ⟨hserved, hlength⟩ := served_getWallet hle
      ⟨hlength, (min_le_right _ _).trans hserved⟩
  | .resume task =>
      let ⟨hserved, hlength⟩ := served_resume hle task
      ⟨hlength.symm.le, (min_le_right _ _).trans hserved⟩
  | .pushWallet task wallet =>
      let ⟨hserved, hlength⟩ := served_pushWallet hle task wallet
      ⟨hlength.symm.le, hserved⟩

/-- Along a run, the served calls grow by one for each `pushWallet`, until no
call made before the run waits. -/
theorem served_run : ∀ (events : List SenderEvent) {s : LocalSenderManager},
    InCallOrder s.semaphore s.tasks →
      s.tasks.length ≤ (s.run events).tasks.length ∧
        min s.tasks.length (s.served + pushCount events) ≤ (s.run events).served
  | [], _, _ => ⟨le_rfl, min_le_right _ _⟩
  | event :: events, s, h => by
      obtain ⟨hlength, hserved⟩ := served_step h.queue_length_le event
      obtain ⟨hlength', hrun⟩ := served_run events (h.step event)
      have hcount : pushCount (event :: events) = pushCount [event] + pushCount events := by
        cases event <;> simp only [pushCount, Nat.zero_add, Nat.add_comm]
      have hle : s.served ≤ s.tasks.length := Nat.sub_le _ _
      show s.tasks.length ≤ ((s.step event).run events).tasks.length ∧
        min s.tasks.length (s.served + pushCount (event :: events)) ≤ ((s.step event).run events).served
      rw [hcount]
      exact ⟨hlength.trans hlength', by omega⟩

/-- For every configuration and every run, a `getWallet` call that waits in
`acquire` with `ahead` calls queued before it stops waiting once `ahead + 1`
`pushWallet` calls have been made, whatever else happens meanwhile: since each
`pushWallet` releases a permit to the oldest waiting call, no call waits for
ever while wallets come back. -/
theorem getWallet_served_after_pushes (config : SenderManagerConfig)
    (events events' : List SenderEvent) {task ahead : Nat}
    (hqueued : ((createLocalSenderManager config).run events).semaphore.queue[ahead]? = some task)
    (hpushes : ahead < pushCount events') :
    (((createLocalSenderManager config).run events).run events').tasks[task]? ≠ some .waiting := by
  have h := InCallOrder.run events (s := createLocalSenderManager config) ⟨[], 0, rfl, List.not_mem_nil _, rfl⟩
  generalize (createLocalSenderManager config).run events = s at h hqueued ⊢
  obtain ⟨hlength, hrun⟩ := served_run events' h
  obtain ⟨front', waiting', htasks', hfront', hqueue'⟩ := InCallOrder.run events' h
  obtain ⟨front, waiting, htasks, -, hqueue⟩ := h
  -- the call is the `ahead`-th waiting one, `front.length + ahead`
  rw [hqueue] at hqueued
  obtain ⟨hahead, -⟩ := List.getElem?_eq_some_iff.1 hqueued
  rw [List.length_range'] at hahead
  rw [List.getElem?_range' _ _ hahead, Nat.one_mul, Option.some.injEq] at hqueued
  rw [htasks', ne_eq, getElem?_eq_waiting_iff hfront']
  simp only [served, htasks, hqueue, htasks', hqueue', List.length_append, List.length_replicate,
    List.length_range'] at hlength hrun
  omega

/-- One wallet and two calls: the second waits first in the queue, and the
first caller's `pushWallet` serves it. -/
theorem getWallet_served_after_pushes_one_wallet :
    let config : SenderManagerConfig := ⟨[⟨"0xa"⟩], none⟩
    let events := [SenderEvent.getWallet, .getWallet]
    let events' := [SenderEvent.resume 0, .pushWallet 0 ⟨"0xa"⟩]
    ((createLocalSenderManager config).run events).semaphore.queue[0]? = some 1 ∧ 0 < pushCount events' ∧
      (((createLocalSenderManager config).run events).run events').tasks[1]? ≠ some .waiting :=
  have hqueued : ((createLocalSenderManager ⟨[⟨"0xa"⟩], none⟩).run [.getWallet, .getWallet]).semaphore.queue[0]? =
      some 1 := by decide
  ⟨hqueued, by decide, getWallet_served_after_pushes _ _ _ hqueued (by decide)⟩

end LocalSenderManager

end AltoBundler.Executor
