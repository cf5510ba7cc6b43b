import AltoBundler.Executor.LocalSenderManager

/-!
# The shared sender manager

With `redisQueueEndpoint` set, every bundler process leases its wallets from
one Redis list, `sender-manager`, through `createRedisSenderManager`
(`executor/senderManager.ts`).  A process starts with `createRedisQueue`: it
reads `llen`, and if the list was empty it `lpush`es the address of every
configured wallet.  `getWallet` `rpop`s the list every 100 ms until it gets
an address, which it resolves to the configured account; `pushWallet`
`rpush`es the wallet's address.

Redis runs each command atomically and a process awaits each one, so a run is
any interleaving of four events over all processes: `llen` (a process
starts), `lpush` (it resumes after `llen`), `rpop` (a poll of one of its
`getWallet` callers) and `rpush` (a `pushWallet`).  The list is written left
end first: `lpush` puts its entries at the left one after the other, so in
reverse order, and `rpop` and `rpush` work at the right.  All processes are
configured with the same wallets.  `lpush` with no entries is an error in
Redis; the model lets it leave the list as it is.

## Results

* `getWallet_leases_twice`: the start re-populates a list that other
  processes have drained.  A process that starts after another leased every
  wallet pushes all the addresses again, and one wallet ends up leased to
  two callers at once.
* `sharedLeases_exclusive`: when every population happens while no address
  is listed or leased, and each `pushWallet` returns a wallet its own process
  leased, the listed and leased addresses are, at every step, either none or
  exactly the configured ones, each once.
-/

namespace AltoBundler.Executor

open scoped List

/-- Where `createRedisQueue` is in a process. -/
inductive RedisPhase
  /-- `llen` answered `length`; the population check is next. -/
  | checked (length : Nat)
  /-- `createRedisQueue` returned and the manager serves calls. -/
  | ready
  deriving DecidableEq, Repr

/-- A bundler process: its phase, and the wallets its `getWallet` callers
hold, one entry per caller. -/
structure RedisProcess where
  phase : RedisPhase
  leased : List Account
  deriving DecidableEq, Repr

/-- The list `sender-manager`, left end first, and the processes that share it. -/
structure SharedSenderManagers where
  queue : List String
  processes : List RedisProcess
  deriving DecidableEq, Repr

/-- A step of a run. -/
inductive RedisEvent
  /-- A process starts: `createRedisQueue` sends `llen`. -/
  | llen
  /-- `process` resumes after `llen` and populates an empty list. -/
  | lpush (process : Nat)
  /-- A `getWallet` caller of `process` polls. -/
  | rpop (process : Nat)
  /-- A caller of `process` calls `pushWallet(wallet)`. -/
  | rpush (process : Nat) (wallet : Account)
  deriving DecidableEq, Repr

/-- The addresses a process's callers hold. -/
def RedisProcess.addresses (process : RedisProcess) : List String :=
  process.leased.map Account.address

namespace SharedSenderManagers

/-- The Redis list before any process started. -/
def empty : SharedSenderManagers :=
  ⟨[], []⟩

/-- The addresses leased to callers, over all processes. -/
def leasedAddresses (s : SharedSenderManagers) : List String :=
  s.processes.flatMap RedisProcess.addresses

/-- The addresses listed or leased. -/
def listed (s : SharedSenderManagers) : List String :=
  s.queue ++ s.leasedAddresses

variable (wallets : List Account)

/-- A process starts: `createRedisQueue` sends `llen`. -/
def llen (s : SharedSenderManagers) : SharedSenderManagers :=
  { s with processes := s.processes ++ [⟨.checked s.queue.length, []⟩] }

/-- `createRedisQueue` of `process` after `llen`: with no element, `lpush`
every configured address. -/
def lpush (s : SharedSenderManagers) (process : Nat) : SharedSenderManagers :=
  match s.processes[process]? with
  | some ⟨.checked length, leased⟩ =>
      ⟨if length = 0 then (wallets.map Account.address).reverse ++ s.queue else s.queue,
        s.processes.set process ⟨.ready, leased⟩⟩
  | _ => s

/-- One poll of a `getWallet` caller of `process`: `rpop`.  The caller
leases the configured account of the popped address; an address that no
account has is popped and lost with `"wallet not found"`. -/
def rpop (s : SharedSenderManagers) (process : Nat) : SharedSenderManagers :=
  match s.processes[process]?, s.queue.getLast? with
  | some ⟨.ready, leased⟩, some address =>
      ⟨s.queue.dropLast,
        match wallets.find? (fun wallet => wallet.address == address) with
        | some wallet => s.processes.set process ⟨.ready, wallet :: leased⟩
        | none => s.processes⟩
  | _, _ => s

/-- `pushWallet(wallet)` by a caller of `process`: `rpush` of the address.
The caller gives the wallet up. -/
def rpush (s : SharedSenderManagers) (process : Nat) (wallet : Account) : SharedSenderManagers :=
  ⟨s.queue ++ [wallet.address],
    match s.processes[process]? with
    | some ⟨phase, leased⟩ => s.processes.set process ⟨phase, leased.erase wallet⟩
    | none => s.processes⟩

def step (s : SharedSenderManagers) : RedisEvent → SharedSenderManagers
  | .llen => s.llen
  | .lpush process => s.lpush wallets process
  | .rpop process => s.rpop wallets process
  | .rpush process wallet => s.rpush process wallet

def run (s : SharedSenderManagers) (events : List RedisEvent) : SharedSenderManagers :=
  events.foldl (step wallets) s

/-- A `pushWallet` returns a wallet that its own process leased. -/
def OwnPush (s : SharedSenderManagers) : RedisEvent → Prop
  | .rpush process wallet =>
      match s.processes[process]? with
      | some p => wallet ∈ p.leased
      | none => False
  | _ => True

/-- A process populates the list only while no address is listed or leased. -/
def PopulatesEmpty (s : SharedSenderManagers) : RedisEvent → Prop
  | .lpush process =>
      match s.processes[process]? with
      | some ⟨.checked 0, _⟩ => s.listed = []
      | _ => True
  | _ => True

instance (s : SharedSenderManagers) (event : RedisEvent) : Decidable (OwnPush s event) := by
  unfold OwnPush; split <;> (try split) <;> infer_instance

instance (s : SharedSenderManagers) (event : RedisEvent) : Decidable (PopulatesEmpty s event) := by
  unfold PopulatesEmpty; split <;> (try split) <;> infer_instance

/-! ## A process that starts after the list was drained -/

/-- One wallet.  The first process starts, populates the list and leases the
wallet; the second starts, finds the list empty, populates it again and
leases the same wallet. -/
theorem getWallet_leases_twice :
    let wallets : List Account := [⟨"0xa"⟩]
    let events := [.llen, .lpush 0, .rpop 0, .llen, .lpush 1, .rpop 1]
    let s := empty.run wallets events
    RunAllowed (step wallets) OwnPush empty events ∧ s.queue = [] ∧
      s.processes.map RedisProcess.leased = [[⟨"0xa"⟩], [⟨"0xa"⟩]] := by
  decide

/-! ## Each address listed or leased once -/

variable {wallets} {s : SharedSenderManagers}

theorem leasedAddresses_set {process : Nat} {p : RedisProcess} (h : s.processes[process]? = some p)
    (p' : RedisProcess) :
    (s.processes.set process p').flatMap RedisProcess.addresses ++ p.addresses ~
      s.leasedAddresses ++ p'.addresses := by
  simpa [List.flatMap_append] using (set_append_perm h).flatMap_right RedisProcess.addresses

/-- What is listed or leased: nothing before the first population, every
configured address once after it. -/
def Conserved (wallets : List Account) (s : SharedSenderManagers) : Prop :=
  s.listed = [] ∨ s.listed ~ wallets.map Account.address

theorem Conserved.of_perm {s' : SharedSenderManagers} (h : Conserved wallets s)
    (hperm : s'.listed ~ s.listed) :
    Conserved wallets s' :=
  h.imp (fun hnil => (hnil ▸ hperm).eq_nil) hperm.trans

theorem listed_llen (s : SharedSenderManagers) : s.llen.listed = s.listed := by
  simp [llen, listed, leasedAddresses, List.flatMap_append, RedisProcess.addresses]

theorem Conserved.lpush (h : Conserved wallets s) (process : Nat)
    (hpopulate : PopulatesEmpty s (.lpush process)) :
    Conserved wallets (s.lpush wallets process) := by
  unfold SharedSenderManagers.lpush
  split
  · rename_i length leased hprocess
    have hleased : (s.processes.set process ⟨.ready, leased⟩).flatMap RedisProcess.addresses ~
        s.leasedAddresses :=
      (List.perm_append_right_iff _).1 (leasedAddresses_set hprocess ⟨.ready, leased⟩)
    split
    · rename_i hempty
      subst hempty
      simp only [PopulatesEmpty, hprocess, listed, List.append_eq_nil] at hpopulate
      have hnil := (hpopulate.2 ▸ hleased).eq_nil
      right
      simp only [listed, leasedAddresses, hpopulate.1, hnil, List.append_nil]
      exact List.reverse_perm _
    · exact h.of_perm (hleased.append_left s.queue)
  · exact h

theorem Conserved.rpop (h : Conserved wallets s) (process : Nat) :
    Conserved wallets (s.rpop wallets process) := by
  unfold SharedSenderManagers.rpop
  split
  · rename_i leased address hprocess hlast
    have hqueue := List.dropLast_append_getLast? address hlast
    split
    · rename_i wallet hfind
      have haddress : wallet.address = address := by simpa using List.find?_some hfind
      have hset := leasedAddresses_set hprocess ⟨.ready, wallet :: leased⟩
      apply h.of_perm
      rw [List.perm_iff_count] at hset ⊢
      intro a
      have hcount := hset a
      have hq := congrArg (List.count a) hqueue
      simp only [listed, leasedAddresses, RedisProcess.addresses, List.map_cons, haddress,
        List.count_append, List.count_cons, List.count_singleton, List.count_nil] at hcount hq ⊢
      omega
    · rename_i hfind
      have hmem : address ∈ s.listed :=
        List.mem_append_left _ (hqueue ▸ List.mem_append_right _ (List.mem_singleton_self _))
      rcases h with hnil | hperm
      · exact absurd (hnil ▸ hmem) (List.not_mem_nil _)
      · obtain ⟨wallet, hwallet, rfl⟩ := List.mem_map.1 (hperm.subset hmem)
        exact absurd (List.find?_eq_none.1 hfind wallet hwallet) (by simp)
  · exact h

theorem Conserved.rpush (h : Conserved wallets s) {process : Nat} {wallet : Account}
    (hown : OwnPush s (.rpush process wallet)) : Conserved wallets (s.rpush process wallet) := by
  cases hprocess : s.processes[process]? with
  | none => simp [OwnPush, hprocess] at hown
  | some p =>
      simp only [OwnPush, hprocess] at hown
      obtain ⟨phase, leased⟩ := p
      have hset := leasedAddresses_set hprocess ⟨phase, leased.erase wallet⟩
      have herase := (List.perm_cons_erase hown).map Account.address
      apply h.of_perm
      unfold SharedSenderManagers.rpush
      rw [hprocess]
      rw [List.perm_iff_count] at hset herase ⊢
      intro a
      have h₁ := hset a
      have h₂ := herase a
      simp only [listed, leasedAddresses, RedisProcess.addresses, List.map_cons, List.count_append,
        List.count_cons, List.count_singleton, List.count_nil] at h₁ h₂ ⊢
      omega

theorem Conserved.step (h : Conserved wallets s) :
    ∀ {event : RedisEvent}, OwnPush s event ∧ PopulatesEmpty s event →
      Conserved wallets (s.step wallets event)
  | .llen, _ => h.of_perm (by rw [show s.step wallets .llen = s.llen from rfl, listed_llen])
  | .lpush process, ⟨_, hpopulate⟩ => h.lpush process hpopulate
  | .rpop process, _ => h.rpop process
  | .rpush _ _, ⟨hown, _⟩ => h.rpush hown

/-- When each `pushWallet` returns a wallet its own process leased, and every
population happens while no address is listed or leased, the listed and
leased addresses are none or the configured ones, each once: no wallet is
listed and leased, or leased to two callers. -/
theorem sharedLeases_exclusive (wallets : List Account)
    (hdistinct : (wallets.map Account.address).Nodup) (events : List RedisEvent)
    (hallowed : RunAllowed (step wallets) (fun s event => OwnPush s event ∧ PopulatesEmpty s event)
      empty events) :
    let s := empty.run wallets events
    s.listed = [] ∨ (s.listed ~ wallets.map Account.address ∧ s.listed.Nodup) := by
  have h : Conserved wallets (empty.run wallets events) :=
    run_invariant (Conserved wallets) (fun _ _ hs hevent => hs.step hevent) events _ (.inl rfl)
      hallowed
  exact h.imp_right fun hperm => ⟨hperm, hperm.nodup_iff.2 hdistinct⟩

/-- Two wallets and two processes: the first populates, the second starts
after it and does not; each leases a wallet, and one comes back. -/
theorem sharedLeases_exclusive_two_processes :
    let wallets : List Account := [⟨"0xa"⟩, ⟨"0xb"⟩]
    let events := [.llen, .lpush 0, .llen, .lpush 1, .rpop 0, .rpop 1, .rpush 0 ⟨"0xa"⟩]
    let s := empty.run wallets events
    (wallets.map Account.address).Nodup ∧
      RunAllowed (step wallets) (fun s event => OwnPush s event ∧ PopulatesEmpty s event)
        empty events ∧
      s.queue = ["0xa"] ∧ s.leasedAddresses = ["0xb"] ∧
      (s.listed = [] ∨ (s.listed ~ wallets.map Account.address ∧ s.listed.Nodup)) :=
  ⟨by decide, by decide, rfl, rfl, sharedLeases_exclusive _ (by decide) _ (by decide)⟩

/-! ## Every listed address is a configured one -/

/-- Every listed address is the address of a configured wallet, and every
leased wallet is a configured one. -/
structure Configured (wallets : List Account) (s : SharedSenderManagers) : Prop where
  queue : ∀ address ∈ s.queue, ∃ wallet ∈ wallets, wallet.address = address
  leased : ∀ p ∈ s.processes, ∀ wallet ∈ p.leased, wallet ∈ wallets

theorem Configured.set (h : Configured wallets s) (process : Nat) (p : RedisProcess)
    (hp : ∀ wallet ∈ p.leased, wallet ∈ wallets) (queue : List String)
    (hqueue : ∀ address ∈ queue, ∃ wallet ∈ wallets, wallet.address = address) :
    Configured wallets ⟨queue, s.processes.set process p⟩ :=
  ⟨hqueue, fun p' hp' => (List.mem_or_eq_of_mem_set hp').elim (h.leased p') (· ▸ hp)⟩

theorem Configured.step (h : Configured wallets s) :
    ∀ {event : RedisEvent}, OwnPush s event → Configured wallets (s.step wallets event)
  | .llen, _ => ⟨h.queue, fun p hp => (List.mem_append.1 hp).elim (h.leased p) fun hnew => by
      rw [List.mem_singleton.1 hnew]
      exact fun _ hwallet => absurd hwallet (List.not_mem_nil _)⟩
  | .lpush process, _ => by
      show Configured wallets (s.lpush wallets process)
      unfold SharedSenderManagers.lpush
      split
      · rename_i length leased hprocess
        refine h.set process ⟨.ready, leased⟩ (h.leased ⟨.checked length, leased⟩ (List.getElem?_mem hprocess)) _
          fun address haddress => ?_
        split at haddress
        · rcases List.mem_append.1 haddress with hnew | hold
          · simpa using hnew
          · exact h.queue address hold
        · exact h.queue address haddress
      · exact h
  | .rpop process, _ => by
      show Configured wallets (s.rpop wallets process)
      unfold SharedSenderManagers.rpop
      split
      · rename_i leased address hprocess _
        have hqueue := fun a ha => h.queue a (List.dropLast_subset _ ha)
        split
        · rename_i wallet hfind
          refine h.set process ⟨.ready, wallet :: leased⟩ (fun w hw => ?_) _ hqueue
          rcases List.mem_cons.1 hw with rfl | hw
          exacts [List.mem_of_find?_eq_some hfind, h.leased _ (List.getElem?_mem hprocess) w hw]
        · exact ⟨hqueue, h.leased⟩
      · exact h
  | .rpush process wallet, hown => by
      show Configured wallets (s.rpush process wallet)
      cases hprocess : s.processes[process]? with
      | none => simp [OwnPush, hprocess] at hown
      | some p =>
          simp only [OwnPush, hprocess] at hown
          have hp := h.leased p (List.getElem?_mem hprocess)
          obtain ⟨phase, leased⟩ := p
          unfold SharedSenderManagers.rpush
          rw [hprocess]
          exact h.set process ⟨phase, leased.erase wallet⟩ (fun w hw => hp w (List.mem_of_mem_erase hw)) _
            fun address haddress =>
            (List.mem_append.1 haddress).elim (h.queue address) fun hnew =>
              ⟨wallet, hp wallet hown, (List.mem_singleton.1 hnew).symm⟩

/-- When each `pushWallet` returns a wallet its own process leased, every
address in the shared list belongs to a configured wallet, whoever populated
it and however the calls interleave: the `wallets.find` of a `getWallet` poll
always succeeds, so it never throws `"wallet not found"` and loses the popped
address. -/
theorem getWallet_finds_wallet (wallets : List Account) (events : List RedisEvent)
    (hallowed : RunAllowed (step wallets) OwnPush empty events) :
    ∀ address ∈ (empty.run wallets events).queue,
      (wallets.find? fun wallet => wallet.address == address).isSome := by
  have h : Configured wallets (empty.run wallets events) :=
    run_invariant (Configured wallets) (fun _ _ hs hevent => hs.step hevent) events _
      ⟨fun _ h => absurd h (List.not_mem_nil _), fun _ h => absurd h (List.not_mem_nil _)⟩ hallowed
  intro address haddress
  obtain ⟨wallet, hwallet, rfl⟩ := h.queue address haddress
  exact List.find?_isSome.2 ⟨wallet, hwallet, beq_self_eq_true _⟩

/-- Two processes that both populate the list: one wallet is listed twice, and
both copies resolve. -/
theorem getWallet_finds_wallet_double_population :
    let wallets : List Account := [⟨"0xa"⟩]
    let events := [.llen, .llen, .lpush 0, .lpush 1, .rpop 0]
    RunAllowed (step wallets) OwnPush empty events ∧ (empty.run wallets events).queue = ["0xa"] ∧
      ∀ address ∈ (empty.run wallets events).queue,
        (wallets.find? fun wallet => wallet.address == address).isSome :=
  ⟨by decide, rfl, getWallet_finds_wallet _ _ (by decide)⟩

end SharedSenderManagers

end AltoBundler.Executor
