import Mathlib.Data.List.Perm.Basic
import Mathlib.Data.List.Nodup

/-!
# The local sender manager

`createLocalSenderManager` (`executor/senderManager.ts`) leases the executor
wallets to the tasks that bundle.  It keeps the list `availableWallets` and a
semaphore from async-mutex with one permit per wallet.  `getWallet` waits for
a permit, then shifts the first available wallet; `pushWallet` appends a
wallet that is not already available, then releases a permit.

## The semaphore

async-mutex's `Semaphore`, used with weight 1 only, is a value, the free
permits, and a FIFO queue of the callers waiting in `acquire`.  `acquire`
hands a permit out at once when nobody is queued and one is free, and queues
the caller otherwise; `release` adds a permit and then dispatches: while a
caller is queued and a permit is free, the first caller takes it.  A permit
resolves the caller's promise, and the caller resumes later.

## Runs

A `getWallet` call is a task, numbered by call order.  It takes two events:
`getWallet`, up to `await semaphore.acquire()`, and `resume`, after its
permit came, which shifts a wallet or, on an empty list, releases the permit
and throws `"no more wallets"`.  `pushWallet` is one event, made by a task.
Any interleaving of these events is a run; what the callers may push is a
predicate on the events, and `RunAllowed` asks it of each event of a run.

## Results

* `leases_exclusive`: when each task pushes back only the wallet it holds, no
  wallet is held by two tasks, and the available wallets and the held ones
  are the configured pool as a multiset.
* `getWallet_never_fails`: under the same pushes, the free permits and the
  permits not yet used add up to the number of available wallets, so no
  `getWallet` throws.
* `getWallet_fails_after_double_push`: `pushWallet` releases a permit even
  when the wallet is already available, so a wallet pushed twice lets two
  tasks past the semaphore for one wallet, and the second one throws.
* `availableWallets_nodup`: whatever is pushed, the `includes` guard keeps the
  available list free of duplicates, in those runs too.
-/

namespace AltoBundler.Executor

open scoped List

/-! ## Wallets -/

/-- A viem `Account`.  The accounts of distinct private keys have distinct
addresses, so comparing accounts (`includes`) is comparing addresses. -/
structure Account where
  address : String
  deriving DecidableEq, Repr

/-- The fields of `AltoConfig` that `getAvailableWallets` reads. -/
structure SenderManagerConfig where
  executorPrivateKeys : List Account
  maxExecutors : Option Nat
  deriving DecidableEq, Repr

/-- `getAvailableWallets`: the executor accounts, cut to `maxExecutors`. -/
def getAvailableWallets (config : SenderManagerConfig) : List Account :=
  match config.maxExecutors with
  | some maxExecutors =>
      if config.executorPrivateKeys.length > maxExecutors then
        config.executorPrivateKeys.take maxExecutors
      else config.executorPrivateKeys
  | none => config.executorPrivateKeys

theorem getAvailableWallets_nodup {config : SenderManagerConfig}
    (hdistinct : config.executorPrivateKeys.Nodup) : (getAvailableWallets config).Nodup := by
  unfold getAvailableWallets
  split
  · split
    · exact hdistinct.sublist (List.take_sublist _ _)
    · exact hdistinct
  · exact hdistinct

/-! ## Runs under an assumption on the callers -/

section Runs

variable {σ ε : Type} (step : σ → ε → σ)

/-- Each event of a run satisfies `allowed` in the state it is taken in. -/
def RunAllowed (allowed : σ → ε → Prop) : σ → List ε → Prop
  | _, [] => True
  | s, event :: events => allowed s event ∧ RunAllowed allowed (step s event) events

instance RunAllowed.decidable {allowed : σ → ε → Prop} [∀ s event, Decidable (allowed s event)] :
    ∀ s events, Decidable (RunAllowed step allowed s events)
  | _, [] => isTrue trivial
  | s, event :: events =>
      haveI : Decidable (RunAllowed step allowed (step s event) events) :=
        RunAllowed.decidable (step s event) events
      inferInstanceAs (Decidable (allowed s event ∧ _))

variable {step}

/-- What every allowed step preserves holds after every allowed run. -/
theorem run_invariant {allowed : σ → ε → Prop} (Inv : σ → Prop)
    (hstep : ∀ s event, Inv s → allowed s event → Inv (step s event)) :
    ∀ (events : List ε) (s : σ), Inv s → RunAllowed step allowed s events →
      Inv (events.foldl step s)
  | [], _, hs, _ => hs
  | event :: events, s, hs, ⟨hevent, hevents⟩ =>
      run_invariant Inv hstep events (step s event) (hstep s event hs hevent) hevents

end Runs

/-! ## The semaphore -/

/-- An async-mutex `Semaphore` used with weight 1. -/
structure Semaphore where
  value : Nat
  queue : List Nat
  deriving DecidableEq, Repr

namespace Semaphore

/-- `_dispatchQueue` from `value` free permits: the semaphore left, and the
callers granted a permit, first in the queue first. -/
def dispatchQueue : Nat → List Nat → Semaphore × List Nat
  | value + 1, task :: queue =>
      let (semaphore, granted) := dispatchQueue value queue
      (semaphore, task :: granted)
  | value, queue => (⟨value, queue⟩, [])

/-- `acquire()` by `task`: the new semaphore, and whether the permit was
handed out at once. -/
def acquire (semaphore : Semaphore) (task : Nat) : Semaphore × Bool :=
  if semaphore.queue = [] ∧ 1 ≤ semaphore.value then (⟨semaphore.value - 1, []⟩, true)
  else (⟨semaphore.value, semaphore.queue ++ [task]⟩, false)

/-- `release()`: one more permit, then dispatch. -/
def release (semaphore : Semaphore) : Semaphore × List Nat :=
  dispatchQueue (semaphore.value + 1) semaphore.queue

/-- The dispatch loop grants a prefix of the queue, one permit each. -/
theorem dispatchQueue_spec : ∀ (value : Nat) (queue : List Nat),
    (dispatchQueue value queue).2 ++ (dispatchQueue value queue).1.queue = queue ∧
      (dispatchQueue value queue).1.value + (dispatchQueue value queue).2.length = value
  | 0, _ => ⟨rfl, rfl⟩
  | _ + 1, [] => ⟨rfl, rfl⟩
  | value + 1, task :: queue => by
      obtain ⟨hqueue, hvalue⟩ := dispatchQueue_spec value queue
      simp only [dispatchQueue, List.cons_append, hqueue, List.length_cons, true_and]
      omega

theorem release_spec (semaphore : Semaphore) :
    semaphore.release.2 ++ semaphore.release.1.queue = semaphore.queue ∧
      semaphore.release.1.value + semaphore.release.2.length = semaphore.value + 1 :=
  dispatchQueue_spec _ _

theorem acquire_cases (semaphore : Semaphore) (task : Nat) :
    (semaphore.acquire task = (⟨semaphore.value - 1, []⟩, true) ∧ semaphore.queue = [] ∧
        1 ≤ semaphore.value) ∨
      semaphore.acquire task = (⟨semaphore.value, semaphore.queue ++ [task]⟩, false) := by
  unfold acquire
  split
  · exact .inl ⟨rfl, ‹_›⟩
  · exact .inr rfl

end Semaphore

/-! ## The manager -/

/-- Where a `getWallet` call is. -/
inductive Task
  /-- Queued in `semaphore.acquire()`. -/
  | waiting
  /-- Its permit came; it has not resumed yet. -/
  | granted
  /-- It returned `wallet`. -/
  | holding (wallet : Account)
  /-- Its caller gave the wallet back with `pushWallet`. -/
  | returned
  /-- It threw `error`. -/
  | failed (error : String)
  deriving DecidableEq, Repr

/-- The wallet a task holds. -/
def Task.wallet? : Task → Option Account
  | .holding wallet => some wallet
  | _ => none

/-- The callers a `release` dispatched: their `acquire` resolves. -/
def grant (tasks : List Task) (granted : List Nat) : List Task :=
  granted.foldl (fun tasks task => tasks.set task .granted) tasks

/-- The closure of `createLocalSenderManager`, with the `getWallet` calls made
so far. -/
structure LocalSenderManager where
  wallets : List Account
  availableWallets : List Account
  semaphore : Semaphore
  tasks : List Task
  deriving DecidableEq, Repr

def createLocalSenderManager (config : SenderManagerConfig) : LocalSenderManager :=
  let wallets := getAvailableWallets config
  ⟨wallets, wallets, ⟨wallets.length, []⟩, []⟩

namespace LocalSenderManager

def getAllWallets (s : LocalSenderManager) : List Account :=
  s.wallets

/-- The wallets the tasks hold. -/
def held (s : LocalSenderManager) : List Account :=
  s.tasks.filterMap Task.wallet?

/-- The permits handed out whose tasks have not resumed. -/
def grantedCount (s : LocalSenderManager) : Nat :=
  s.tasks.count .granted

/-- `semaphore.release()`, and the callers it wakes. -/
def releaseSemaphore (s : LocalSenderManager) : LocalSenderManager :=
  { s with semaphore := s.semaphore.release.1, tasks := grant s.tasks s.semaphore.release.2 }

/-- `getWallet()` up to `await semaphore.acquire()`: a new task, whose permit
comes at once or which is queued. -/
def getWallet (s : LocalSenderManager) : LocalSenderManager :=
  let acquired := s.semaphore.acquire s.tasks.length
  { s with
    semaphore := acquired.1
    tasks := s.tasks ++ [if acquired.2 then .granted else .waiting] }

/-- `getWallet()` after the acquire of `task` resolved: shift a wallet, or
release the permit and throw on an empty list. -/
def resume (s : LocalSenderManager) (task : Nat) : LocalSenderManager :=
  if s.tasks[task]? = some .granted then
    match s.availableWallets with
    | wallet :: rest =>
        { s with availableWallets := rest, tasks := s.tasks.set task (.holding wallet) }
    | [] =>
        let s := s.releaseSemaphore
        { s with tasks := s.tasks.set task (.failed "no more wallets") }
  else s

/-- `pushWallet(wallet)` by `task`: append the wallet unless it is available,
then release.  A caller that held the wallet gives it up. -/
def pushWallet (s : LocalSenderManager) (task : Nat) (wallet : Account) : LocalSenderManager :=
  let s := { s with
    availableWallets :=
      if wallet ∈ s.availableWallets then s.availableWallets else s.availableWallets ++ [wallet]
    tasks :=
      if s.tasks[task]? = some (Task.holding wallet) then s.tasks.set task .returned else s.tasks }
  s.releaseSemaphore

end LocalSenderManager

/-- A step of a run. -/
inductive SenderEvent
  | getWallet
  | resume (task : Nat)
  | pushWallet (task : Nat) (wallet : Account)
  deriving DecidableEq, Repr

namespace LocalSenderManager

def step (s : LocalSenderManager) : SenderEvent → LocalSenderManager
  | .getWallet => s.getWallet
  | .resume task => s.resume task
  | .pushWallet task wallet => s.pushWallet task wallet

def run (s : LocalSenderManager) (events : List SenderEvent) : LocalSenderManager :=
  events.foldl step s

/-- A pusher gives back the wallet it holds. -/
def HolderPush (s : LocalSenderManager) : SenderEvent → Prop
  | .pushWallet task wallet => s.tasks[task]? = some (.holding wallet)
  | _ => True

/-- A pusher pushes some wallet of the pool. -/
def PoolPush (s : LocalSenderManager) : SenderEvent → Prop
  | .pushWallet _ wallet => wallet ∈ s.wallets
  | _ => True

instance (s : LocalSenderManager) (event : SenderEvent) : Decidable (HolderPush s event) := by
  cases event <;> unfold HolderPush <;> infer_instance

instance (s : LocalSenderManager) (event : SenderEvent) : Decidable (PoolPush s event) := by
  cases event <;> unfold PoolPush <;> infer_instance

end LocalSenderManager

/-! ## Overwriting tasks -/

/-- Overwriting entry `i` of a list swaps one element for another. -/
theorem set_append_perm {α : Type} {x y : α} :
    ∀ {l : List α} {i : Nat}, l[i]? = some y → l.set i x ++ [y] ~ l ++ [x]
  | [], _, h => by simp at h
  | a :: l, 0, h => by
      obtain rfl : a = y := by simpa using h
      exact (List.perm_append_singleton _ _).trans ((List.perm_append_singleton x l).symm.cons _)
  | a :: l, i + 1, h => (set_append_perm (l := l) (by simpa using h)).cons a

theorem grant_getElem?_of_not_mem {task : Nat} :
    ∀ (tasks : List Task) (granted : List Nat), task ∉ granted →
      (grant tasks granted)[task]? = tasks[task]?
  | _, [], _ => rfl
  | tasks, first :: granted, h => by
      rw [List.mem_cons, not_or] at h
      rw [grant, List.foldl_cons, ← grant, grant_getElem?_of_not_mem _ granted h.2,
        List.getElem?_set_ne (Ne.symm h.1)]

/-- Dispatching distinct waiting tasks turns them into granted ones. -/
theorem grant_perm : ∀ (tasks : List Task) (granted : List Nat),
    (∀ task ∈ granted, tasks[task]? = some .waiting) → granted.Nodup →
      grant tasks granted ++ List.replicate granted.length .waiting ~
        tasks ++ List.replicate granted.length .granted
  | _, [], _, _ => by simp [grant]
  | tasks, first :: granted, hwaiting, hnodup => by
      rw [List.nodup_cons] at hnodup
      have hset := set_append_perm (x := Task.granted) (hwaiting first (List.mem_cons_self _ _))
      have hrest := grant_perm (tasks.set first .granted) granted (fun task htask => by
        rw [List.getElem?_set_ne (fun h : first = task => hnodup.1 (h ▸ htask))]
        exact hwaiting task (List.mem_cons_of_mem _ htask)) hnodup.2
      rw [List.perm_iff_count] at hset hrest ⊢
      intro task
      have h₁ := hset task
      have h₂ := hrest task
      simp only [grant, List.foldl_cons, List.length_cons, List.count_append, List.count_replicate,
        List.count_singleton] at h₁ h₂ ⊢
      split_ifs at h₁ h₂ ⊢ <;> omega

theorem filterMap_singleton {α β : Type} (f : α → Option β) (a : α) :
    [a].filterMap f = (f a).toList := by
  cases h : f a <;> simp [List.filterMap_cons, h]

theorem filterMap_set_perm {α β : Type} (f : α → Option β) {l : List α} {i : Nat} {x y : α}
    (h : l[i]? = some y) :
    (l.set i x).filterMap f ++ (f y).toList ~ l.filterMap f ++ (f x).toList := by
  simpa only [List.filterMap_append, filterMap_singleton] using (set_append_perm h).filterMap f

/-! ## The queue holds distinct waiting tasks -/

namespace LocalSenderManager

variable {s : LocalSenderManager}

/-- What `resume` can do: shift a wallet, throw on an empty list, or nothing
for a task whose permit has not come. -/
theorem resume_cases (s : LocalSenderManager) (task : Nat) :
    (s.tasks[task]? = some .granted ∧ ∃ wallet rest, s.availableWallets = wallet :: rest ∧
        s.resume task =
          { s with availableWallets := rest, tasks := s.tasks.set task (.holding wallet) }) ∨
      (s.tasks[task]? = some .granted ∧ s.availableWallets = [] ∧
        s.resume task = { s.releaseSemaphore with
          tasks := s.releaseSemaphore.tasks.set task (.failed "no more wallets") }) ∨
      s.resume task = s := by
  unfold resume
  split
  · split
    · exact .inl ⟨‹_›, _, _, ‹_›, rfl⟩
    · exact .inr (.inl ⟨‹_›, ‹_›, rfl⟩)
  · exact .inr (.inr rfl)

/-- The tasks in the semaphore's queue are distinct and waiting. -/
structure Queued (semaphore : Semaphore) (tasks : List Task) : Prop where
  waiting : ∀ task ∈ semaphore.queue, tasks[task]? = some .waiting
  nodup : semaphore.queue.Nodup

section Queued

variable {semaphore : Semaphore} {tasks : List Task}

theorem Queued.not_mem (h : Queued semaphore tasks) {task : Nat} {t : Task}
    (ht : tasks[task]? = some t)
    (hwaiting : t ≠ .waiting) : task ∉ semaphore.queue :=
  fun hmem => hwaiting (Option.some.inj ((h.waiting task hmem).symm.trans ht).symm)

theorem Queued.set (h : Queued semaphore tasks) {task : Nat} (hmem : task ∉ semaphore.queue)
    (t : Task) :
    Queued semaphore (tasks.set task t) :=
  ⟨fun q hq => by
    rw [List.getElem?_set_ne (fun h : task = q => hmem (h ▸ hq))]
    exact h.waiting q hq, h.nodup⟩

end Queued

theorem releaseSemaphore_granted_mem {task : Nat}
    (hmem : task ∈ s.semaphore.release.2) : task ∈ s.semaphore.queue := by
  rw [← s.semaphore.release_spec.1]
  exact List.mem_append_left _ hmem

theorem releaseSemaphore_queue_mem {task : Nat} (hmem : task ∈ s.releaseSemaphore.semaphore.queue) :
    task ∈ s.semaphore.queue := by
  rw [← s.semaphore.release_spec.1]
  exact List.mem_append_right _ hmem

theorem releaseSemaphore_getElem? {task : Nat} (hmem : task ∉ s.semaphore.queue) :
    s.releaseSemaphore.tasks[task]? = s.tasks[task]? :=
  grant_getElem?_of_not_mem _ _ (fun hg => hmem (releaseSemaphore_granted_mem hg))

theorem Queued.nodup_release (h : Queued s.semaphore s.tasks) :
    (s.semaphore.release.2 ++ s.releaseSemaphore.semaphore.queue).Nodup :=
  s.semaphore.release_spec.1 ▸ h.nodup

/-- The spec lemma of `release`: the tasks it wakes were waiting, and one
permit more is either free or handed out. -/
theorem releaseSemaphore_perm (h : Queued s.semaphore s.tasks) :
    s.releaseSemaphore.tasks ++ List.replicate s.semaphore.release.2.length .waiting ~
      s.tasks ++ List.replicate s.semaphore.release.2.length .granted :=
  grant_perm _ _ (fun task htask => h.waiting task (releaseSemaphore_granted_mem htask))
    h.nodup_release.of_append_left

theorem Queued.releaseSemaphore (h : Queued s.semaphore s.tasks) :
    Queued s.releaseSemaphore.semaphore s.releaseSemaphore.tasks := by
  have hnodup := h.nodup_release
  refine ⟨fun task htask => ?_, (List.nodup_append.1 hnodup).2.1⟩
  rw [LocalSenderManager.releaseSemaphore, grant_getElem?_of_not_mem _ _
    (fun hg => List.disjoint_of_nodup_append hnodup hg htask)]
  exact h.waiting task (releaseSemaphore_queue_mem htask)

theorem held_releaseSemaphore (h : Queued s.semaphore s.tasks) :
    s.releaseSemaphore.held ~ s.held := by
  simpa [held, List.filterMap_append, List.filterMap_replicate, Task.wallet?] using
    (releaseSemaphore_perm h).filterMap Task.wallet?

/-- A release hands its permit out or leaves it free. -/
theorem permits_releaseSemaphore (h : Queued s.semaphore s.tasks) :
    s.releaseSemaphore.semaphore.value + s.releaseSemaphore.grantedCount =
      s.semaphore.value + s.grantedCount + 1 := by
  have hcount := (releaseSemaphore_perm h).count_eq .granted
  have hvalue := s.semaphore.release_spec.2
  simp only [List.count_append, List.count_replicate, beq_self_eq_true, if_true, reduceCtorEq,
    if_false, beq_iff_eq, Nat.add_zero] at hcount
  simp only [grantedCount, LocalSenderManager.releaseSemaphore] at hcount ⊢
  omega

theorem failed_mem_releaseSemaphore (h : Queued s.semaphore s.tasks) {error : String}
    (hmem : Task.failed error ∈ s.releaseSemaphore.tasks) : Task.failed error ∈ s.tasks := by
  simpa using (releaseSemaphore_perm h).subset (List.mem_append_left _ hmem)

@[simp] theorem releaseSemaphore_wallets : s.releaseSemaphore.wallets = s.wallets := rfl
@[simp] theorem releaseSemaphore_availableWallets :
    s.releaseSemaphore.availableWallets = s.availableWallets := rfl

theorem Queued.getWallet (h : Queued s.semaphore s.tasks) :
    Queued s.getWallet.semaphore s.getWallet.tasks := by
  rcases Semaphore.acquire_cases s.semaphore s.tasks.length with ⟨heq, -, -⟩ | heq <;>
    simp only [LocalSenderManager.getWallet, heq]
  · exact ⟨fun _ hmem => absurd hmem (List.not_mem_nil _), List.nodup_nil⟩
  · have hlt : ∀ task ∈ s.semaphore.queue, task < s.tasks.length := fun task htask =>
      (List.getElem?_eq_some_iff.1 (h.waiting task htask)).1
    refine ⟨fun task htask => ?_, List.nodup_append.2 ⟨h.nodup, List.nodup_singleton _, ?_⟩⟩
    · rcases List.mem_append.1 htask with hold | hnew
      · rw [List.getElem?_append_left (hlt task hold)]
        exact h.waiting task hold
      · rw [List.mem_singleton.1 hnew]
        exact List.getElem?_concat_length _ _
    · intro task hold hnew
      rw [List.mem_singleton.1 hnew] at hold
      exact absurd (hlt _ hold) (lt_irrefl _)

theorem Queued.resume (h : Queued s.semaphore s.tasks) (task : Nat) :
    Queued (s.resume task).semaphore (s.resume task).tasks := by
  rcases resume_cases s task with ⟨hgranted, _, _, -, heq⟩ | ⟨hgranted, -, heq⟩ | heq <;> rw [heq]
  · exact h.set (h.not_mem hgranted (by simp)) _
  · exact h.releaseSemaphore.set
      (fun hq => h.not_mem hgranted (by simp) (releaseSemaphore_queue_mem hq)) _
  · exact h

theorem step_wallets (s : LocalSenderManager) : ∀ event, (s.step event).wallets = s.wallets
  | .getWallet => rfl
  | .resume task => by
      show (s.resume task).wallets = s.wallets
      rcases resume_cases s task with ⟨-, _, _, -, heq⟩ | ⟨-, -, heq⟩ | heq <;>
        simp only [heq, releaseSemaphore_wallets]
  | .pushWallet _ _ => rfl

theorem run_wallets : ∀ (events : List SenderEvent) (s : LocalSenderManager),
    (s.run events).wallets = s.wallets
  | [], _ => rfl
  | event :: events, s => (run_wallets events (s.step event)).trans (s.step_wallets event)

/-! ## Leases are exclusive and conserve the pool -/

theorem not_holding_of_nodup {tasks : List Task} {wallet : Account}
    (hnodup : ((Task.holding wallet :: tasks).filterMap Task.wallet?).Nodup) (j : Nat) :
    tasks[j]? ≠ some (.holding wallet) := fun hj => by
  simp only [List.filterMap_cons, Task.wallet?, List.nodup_cons] at hnodup
  exact hnodup.1 (List.mem_filterMap.2 ⟨_, List.getElem?_mem hj, rfl⟩)

/-- What a task holds, no other task holds. -/
theorem holding_unique : ∀ {tasks : List Task} {i j : Nat} {wallet : Account},
    (tasks.filterMap Task.wallet?).Nodup → tasks[i]? = some (.holding wallet) →
      tasks[j]? = some (.holding wallet) → i = j
  | [], _, _, _, _, hi, _ => by simp at hi
  | _ :: _, 0, 0, _, _, _, _ => rfl
  | _ :: _, 0, j + 1, _, hnodup, hi, hj => by
      obtain rfl : _ = Task.holding _ := by simpa using hi
      exact absurd (by simpa using hj) (not_holding_of_nodup hnodup j)
  | _ :: _, i + 1, 0, _, hnodup, hi, hj => by
      obtain rfl : _ = Task.holding _ := by simpa using hj
      exact absurd (by simpa using hi) (not_holding_of_nodup hnodup i)
  | task :: tasks, i + 1, j + 1, _, hnodup, hi, hj =>
      congrArg (· + 1) (holding_unique
        (hnodup.sublist ((List.sublist_cons_self task tasks).filterMap _)) (by simpa using hi)
        (by simpa using hj))

/-- The invariant of the runs whose pushers give back the wallet they hold. -/
structure Leases (s : LocalSenderManager) : Prop where
  queued : Queued s.semaphore s.tasks
  nodup : s.wallets.Nodup
  perm : s.availableWallets ++ s.held ~ s.wallets

theorem Leases.not_mem_available (h : Leases s) {task : Nat} {wallet : Account}
    (hholds : s.tasks[task]? = some (.holding wallet)) : wallet ∉ s.availableWallets :=
  fun havailable => List.disjoint_of_nodup_append (h.perm.nodup_iff.2 h.nodup) havailable
    (List.mem_filterMap.2 ⟨_, List.getElem?_mem hholds, rfl⟩)

theorem leases_create {config : SenderManagerConfig}
    (hdistinct : config.executorPrivateKeys.Nodup) :
    Leases (createLocalSenderManager config) :=
  ⟨⟨fun _ h => absurd h (List.not_mem_nil _), List.nodup_nil⟩, getAvailableWallets_nodup hdistinct,
    by simp [held, createLocalSenderManager]⟩

theorem held_getWallet (s : LocalSenderManager) : s.getWallet.held = s.held := by
  simp only [held, getWallet, List.filterMap_append, filterMap_singleton]
  split <;> simp [Task.wallet?]

/-- `pushWallet` by the task that holds the wallet. -/
theorem pushWallet_of_holds {task : Nat} {wallet : Account}
    (hholds : s.tasks[task]? = some (.holding wallet)) (havailable : wallet ∉ s.availableWallets) :
    s.pushWallet task wallet = LocalSenderManager.releaseSemaphore
      { s with
        availableWallets := s.availableWallets ++ [wallet]
        tasks := s.tasks.set task .returned } := by
  simp [pushWallet, hholds, havailable]

theorem Leases.getWallet (h : Leases s) : Leases s.getWallet :=
  ⟨h.queued.getWallet, h.nodup, by simpa only [held_getWallet] using h.perm⟩

theorem Leases.releaseSemaphore (h : Leases s) : Leases s.releaseSemaphore :=
  ⟨h.queued.releaseSemaphore, h.nodup,
    ((held_releaseSemaphore h.queued).append_left _).trans h.perm⟩

theorem Leases.resume (h : Leases s) (task : Nat) : Leases (s.resume task) := by
  rcases resume_cases s task with
    ⟨hgranted, wallet, rest, havailable, heq⟩ | ⟨hgranted, -, heq⟩ | heq <;> rw [heq]
  · have hset := filterMap_set_perm Task.wallet? (x := .holding wallet) hgranted
    simp only [Task.wallet?, Option.toList, List.append_nil] at hset
    refine ⟨h.queued.set (h.queued.not_mem hgranted (by simp)) _, h.nodup, ?_⟩
    calc rest ++ (s.tasks.set task (.holding wallet)).filterMap Task.wallet?
        ~ rest ++ (s.held ++ [wallet]) := hset.append_left rest
      _ ~ (wallet :: rest) ++ s.held := by
        rw [← List.append_assoc]; exact List.perm_append_singleton _ _
      _ ~ s.wallets := havailable ▸ h.perm
  · have hmem := h.queued.not_mem hgranted (by simp)
    have hset := filterMap_set_perm Task.wallet? (x := .failed "no more wallets")
      ((releaseSemaphore_getElem? hmem).trans hgranted)
    simp only [Task.wallet?, Option.toList, List.append_nil] at hset
    have hr := h.releaseSemaphore
    exact ⟨hr.queued.set (fun hq => hmem (releaseSemaphore_queue_mem hq)) _, hr.nodup,
      (hset.append_left _).trans hr.perm⟩
  · exact h

/-- `pushWallet` by the holder, up to its release, keeps the leases. -/
theorem Leases.returnWallet (h : Leases s) {task : Nat} {wallet : Account}
    (hholds : s.tasks[task]? = some (.holding wallet)) :
    Leases { s with
      availableWallets := s.availableWallets ++ [wallet]
      tasks := s.tasks.set task .returned } := by
  have hset := filterMap_set_perm Task.wallet? (x := .returned) hholds
  simp only [Task.wallet?, Option.toList, List.append_nil] at hset
  refine ⟨h.queued.set (h.queued.not_mem hholds (by simp)) _, h.nodup, ?_⟩
  calc s.availableWallets ++ [wallet] ++ (s.tasks.set task .returned).filterMap Task.wallet?
      ~ s.availableWallets ++
          ((s.tasks.set task .returned).filterMap Task.wallet? ++ [wallet]) := by
        rw [List.append_assoc]; exact (List.perm_append_comm).append_left _
    _ ~ s.wallets := (hset.append_left _).trans h.perm

theorem Leases.pushWallet (h : Leases s) {task : Nat} {wallet : Account}
    (hholds : s.tasks[task]? = some (.holding wallet)) : Leases (s.pushWallet task wallet) := by
  rw [pushWallet_of_holds hholds (h.not_mem_available hholds)]
  exact (h.returnWallet hholds).releaseSemaphore

/-- Every step whose pusher gives back what it holds keeps the leases. -/
theorem Leases.step (h : Leases s) :
    ∀ {event : SenderEvent}, HolderPush s event → Leases (s.step event)
  | .getWallet, _ => h.getWallet
  | .resume task, _ => h.resume task
  | .pushWallet _ _, hholds => h.pushWallet hholds

/-- With distinct executor accounts, and pushers that each give back the
wallet they hold, no wallet is held by two tasks at once, and the available
wallets and the held ones are the configured pool as a multiset, after every
run. -/
theorem leases_exclusive (config : SenderManagerConfig)
    (hdistinct : config.executorPrivateKeys.Nodup) (events : List SenderEvent)
    (hpush : RunAllowed step HolderPush (createLocalSenderManager config) events) :
    let s := (createLocalSenderManager config).run events
    (∀ (i j : Nat) (wallet : Account), s.tasks[i]? = some (Task.holding wallet) →
        s.tasks[j]? = some (Task.holding wallet) → i = j) ∧
      s.availableWallets ++ s.held ~ getAvailableWallets config := by
  have h : Leases ((createLocalSenderManager config).run events) :=
    run_invariant Leases (fun _ _ hs hevent => hs.step hevent) events _ (leases_create hdistinct)
      hpush
  have hwallets := run_wallets events (createLocalSenderManager config)
  refine ⟨fun i j wallet hi hj =>
    holding_unique (h.perm.nodup_iff.2 h.nodup).of_append_right hi hj, ?_⟩
  have hperm := h.perm
  rwa [hwallets] at hperm

/-- The scenario S6 of the spec: two wallets, three `getWallet` calls, the
third waits until the first wallet comes back and then gets it. -/
theorem leases_exclusive_contention :
    let config : SenderManagerConfig := ⟨[⟨"0xa"⟩, ⟨"0xb"⟩], none⟩
    let events :=
      [.getWallet, .getWallet, .getWallet, .resume 0, .resume 1, .pushWallet 0 ⟨"0xa"⟩, .resume 2]
    let s := (createLocalSenderManager config).run events
    config.executorPrivateKeys.Nodup ∧
      RunAllowed step HolderPush (createLocalSenderManager config) events ∧
      s.tasks = [.returned, .holding ⟨"0xb"⟩, .holding ⟨"0xa"⟩] ∧
      ((∀ (i j : Nat) (wallet : Account), s.tasks[i]? = some (Task.holding wallet) →
          s.tasks[j]? = some (Task.holding wallet) → i = j) ∧
        s.availableWallets ++ s.held ~ getAvailableWallets config) :=
  ⟨by decide, by decide, rfl, leases_exclusive _ (by decide) _ (by decide)⟩

/-! ## Every permit has a wallet -/

theorem count_set_add {α : Type} [DecidableEq α] {l : List α} {i : Nat} {x y : α} (b : α)
    (h : l[i]? = some y) : (l.set i x).count b + [y].count b = l.count b + [x].count b := by
  simpa only [List.count_append] using (set_append_perm h).count_eq b

theorem mem_set_of_mem {α : Type} {l : List α} {i : Nat} {x y a : α} (h : l[i]? = some y)
    (hmem : a ∈ l.set i x) : a ∈ l ∨ a = x := by
  simpa using (set_append_perm h).subset (List.mem_append_left _ hmem)

/-- The invariant that keeps `getWallet` from throwing: one available wallet
for each free permit and for each permit not yet used. -/
structure Permits (s : LocalSenderManager) extends Leases s : Prop where
  permits : s.semaphore.value + s.grantedCount = s.availableWallets.length
  noFailed : ∀ error, Task.failed error ∉ s.tasks

theorem permits_create {config : SenderManagerConfig}
    (hdistinct : config.executorPrivateKeys.Nodup) :
    Permits (createLocalSenderManager config) :=
  ⟨leases_create hdistinct, by simp [createLocalSenderManager, grantedCount], by
    simp [createLocalSenderManager]⟩

theorem permits_getWallet (s : LocalSenderManager) :
    s.getWallet.semaphore.value + s.getWallet.grantedCount =
      s.semaphore.value + s.grantedCount := by
  have hcount (t : Task) :
      (s.tasks ++ [t]).count .granted = s.tasks.count .granted + if t = .granted then 1 else 0 := by
    simp [List.count_append, List.count_singleton]
  rcases Semaphore.acquire_cases s.semaphore s.tasks.length with ⟨heq, -, hvalue⟩ | heq <;>
    simp only [LocalSenderManager.getWallet, grantedCount, heq, hcount, ↓reduceIte, reduceCtorEq,
      Bool.false_eq_true, Nat.add_zero]
  omega

theorem Permits.getWallet (h : Permits s) : Permits s.getWallet :=
  ⟨h.toLeases.getWallet, (permits_getWallet s).trans h.permits, fun error hmem => by
    simp only [LocalSenderManager.getWallet, List.mem_append, List.mem_singleton] at hmem
    rcases hmem with hmem | hmem
    · exact h.noFailed error hmem
    · split at hmem <;> cases hmem⟩

theorem Permits.resume (h : Permits s) (task : Nat) : Permits (s.resume task) := by
  have hleases := h.toLeases.resume task
  rcases resume_cases s task with
    ⟨hgranted, wallet, rest, havailable, heq⟩ | ⟨hgranted, havailable, -⟩ | heq
  · rw [heq] at hleases ⊢
    have hcount := count_set_add (x := .holding wallet) Task.granted hgranted
    simp only [List.count_singleton, beq_iff_eq, reduceCtorEq, eq_self_iff_true, ↓reduceIte,
      Nat.add_zero] at hcount
    have hpermits := h.permits
    rw [havailable] at hpermits
    refine ⟨hleases, ?_, fun error hmem => ?_⟩
    · simp only [grantedCount, List.length_cons] at hpermits ⊢
      omega
    · rcases mem_set_of_mem hgranted hmem with hmem | hmem
      · exact h.noFailed error hmem
      · cases hmem
  · have hpos : 0 < s.grantedCount := List.count_pos_iff.2 (List.getElem?_mem hgranted)
    have := h.permits
    simp only [havailable, List.length_nil] at this
    omega
  · rw [heq]
    exact h

/-- A release with one more available wallet than permits restores the invariant. -/
theorem Permits.releaseSemaphore (h : Leases s)
    (hpermits : s.semaphore.value + s.grantedCount + 1 = s.availableWallets.length)
    (hfailed : ∀ error, Task.failed error ∉ s.tasks) : Permits s.releaseSemaphore :=
  ⟨h.releaseSemaphore, (permits_releaseSemaphore h.queued).trans hpermits,
    fun error hmem => hfailed error (failed_mem_releaseSemaphore h.queued hmem)⟩

theorem Permits.pushWallet (h : Permits s) {task : Nat} {wallet : Account}
    (hholds : s.tasks[task]? = some (.holding wallet)) : Permits (s.pushWallet task wallet) := by
  rw [pushWallet_of_holds hholds (h.not_mem_available hholds)]
  have hcount := count_set_add (x := .returned) Task.granted hholds
  simp only [List.count_singleton, beq_iff_eq, reduceCtorEq, if_false, Nat.add_zero] at hcount
  refine Permits.releaseSemaphore (h.toLeases.returnWallet hholds) ?_ fun error hmem => ?_
  · have := h.permits
    simp only [grantedCount, List.length_append, List.length_singleton] at this ⊢
    omega
  · rcases mem_set_of_mem hholds hmem with hmem | hmem
    · exact h.noFailed error hmem
    · cases hmem

theorem Permits.step (h : Permits s) :
    ∀ {event : SenderEvent}, HolderPush s event → Permits (s.step event)
  | .getWallet, _ => h.getWallet
  | .resume task, _ => h.resume task
  | .pushWallet _ _, hholds => h.pushWallet hholds

/-- With distinct executor accounts and pushers that give back the wallet they
hold, the free permits and the permits not yet used add up to the available
wallets after every run, and no `getWallet` has thrown. -/
theorem getWallet_never_fails (config : SenderManagerConfig)
    (hdistinct : config.executorPrivateKeys.Nodup) (events : List SenderEvent)
    (hpush : RunAllowed step HolderPush (createLocalSenderManager config) events) :
    let s := (createLocalSenderManager config).run events
    s.semaphore.value + s.grantedCount = s.availableWallets.length ∧
      ∀ error, Task.failed error ∉ s.tasks :=
  have h : Permits ((createLocalSenderManager config).run events) :=
    run_invariant Permits (fun _ _ hs hevent => hs.step hevent) events _ (permits_create hdistinct)
      hpush
  ⟨h.permits, h.noFailed⟩

theorem getWallet_never_fails_contention :
    let config : SenderManagerConfig := ⟨[⟨"0xa"⟩, ⟨"0xb"⟩], none⟩
    let events :=
      [.getWallet, .getWallet, .getWallet, .resume 0, .pushWallet 0 ⟨"0xa"⟩, .resume 1, .resume 2]
    let s := (createLocalSenderManager config).run events
    config.executorPrivateKeys.Nodup ∧
      RunAllowed step HolderPush (createLocalSenderManager config) events ∧
      (s.semaphore.value + s.grantedCount = s.availableWallets.length ∧
        ∀ error, Task.failed error ∉ s.tasks) :=
  ⟨by decide, by decide, getWallet_never_fails _ (by decide) _ (by decide)⟩

/-! ## A wallet pushed twice -/

/-- A task pushes its wallet back twice.  The second push finds the wallet
available and appends nothing, but still releases a permit: two free permits
for one wallet.  Two more `getWallet` calls both pass the semaphore, and the
second to resume finds the list empty and throws. -/
theorem getWallet_fails_after_double_push :
    let config : SenderManagerConfig := ⟨[⟨"0xa"⟩], none⟩
    let pushedTwice := (createLocalSenderManager config).run
      [.getWallet, .resume 0, .pushWallet 0 ⟨"0xa"⟩, .pushWallet 0 ⟨"0xa"⟩]
    let events := [.getWallet, .getWallet, .resume 1, .resume 2]
    RunAllowed step PoolPush (createLocalSenderManager config)
        [.getWallet, .resume 0, .pushWallet 0 ⟨"0xa"⟩, .pushWallet 0 ⟨"0xa"⟩] ∧
      RunAllowed step PoolPush pushedTwice events ∧
      pushedTwice.semaphore.value + pushedTwice.grantedCount = 2 ∧
      pushedTwice.availableWallets.length = 1 ∧
      (pushedTwice.run events).tasks[2]? = some (.failed "no more wallets") := by
  decide

/-! ## What the `includes` guard keeps -/

theorem availableWallets_nodup_step (h : s.availableWallets.Nodup) :
    ∀ event, (s.step event).availableWallets.Nodup
  | .getWallet => h
  | .resume task => by
      show (s.resume task).availableWallets.Nodup
      rcases resume_cases s task with ⟨-, wallet, rest, havailable, heq⟩ | ⟨-, -, heq⟩ | heq <;> rw [heq]
      exacts [(havailable ▸ h).of_cons, h, h]
  | .pushWallet task wallet => by
      show (s.pushWallet task wallet).availableWallets.Nodup
      simp only [pushWallet, releaseSemaphore_availableWallets]
      -- the `includes` guard: append only a wallet that is not available
      split
      exacts [h, h.append (List.nodup_singleton _) (List.disjoint_singleton.2 ‹_›)]

theorem availableWallets_nodup_run : ∀ (events : List SenderEvent) {s : LocalSenderManager},
    s.availableWallets.Nodup → (s.run events).availableWallets.Nodup
  | [], _, h => h
  | event :: events, _, h => availableWallets_nodup_run events (availableWallets_nodup_step h event)

/-- For distinct executor accounts and every interleaving of `getWallet` and
`pushWallet` calls, whatever wallets are pushed and however often, the available
list never holds a wallet twice: the `includes` guard of `pushWallet` keeps it
free of duplicates, even in the runs where the semaphore loses count
(`getWallet_fails_after_double_push`). -/
theorem availableWallets_nodup (config : SenderManagerConfig)
    (hdistinct : config.executorPrivateKeys.Nodup) (events : List SenderEvent) :
    ((createLocalSenderManager config).run events).availableWallets.Nodup :=
  availableWallets_nodup_run events (getAvailableWallets_nodup hdistinct)

/-- The wallet pushed twice of `getWallet_fails_after_double_push` is listed once. -/
theorem availableWallets_nodup_double_push :
    let config : SenderManagerConfig := ⟨[⟨"0xa"⟩], none⟩
    let events := [.getWallet, .resume 0, .pushWallet 0 ⟨"0xa"⟩, .pushWallet 0 ⟨"0xa"⟩]
    config.executorPrivateKeys.Nodup ∧ ((createLocalSenderManager config).run events).availableWallets.Nodup :=
  ⟨by decide, availableWallets_nodup _ (by decide) _⟩

end LocalSenderManager

end AltoBundler.Executor
