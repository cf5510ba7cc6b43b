import AltoBundler.Mempool.Interleaving

/-!
# What a reconciliation publishes against a chain

`Reconcile.lean` describes a reconciliation against any multicall.  A chain
answers each `getNonce(sender, nonceKey)` call of the batch on its own: here
that is a multicall `perPair outcome` with one outcome per pair.  Then:

* the run publishes, up to order, the operations of the snapshot whose pair's
  call succeeded with their nonce value (`updateAvailableUserOperations_perm`);
* the loop is pair-major: it pushes the operations of the first pair, then
  those of the second, in the order the pairs first occur in the snapshot
  (`updateAvailableUserOperations_perPair`).  So the operations of one pair
  keep their order (`published_pair_sublist`), but the operations of two pairs
  can come out in another order than they were admitted
  (`updateAvailableUserOperations_reorders`);
* against the EntryPoint's `getNonce`, which returns the packed nonce
  `(key << 64) | sequence`, the comparison with the 64-bit nonce value promotes
  only operations of nonce key 0 (`published_iff_nonceManager`,
  `updateAvailableUserOperations_nonzero_key`).
-/

namespace AltoBundler.MemoryStore

open scoped List

/-- A multicall that answers the `getNonce` call of each pair with `outcome`. -/
def perPair (outcome : Address × Nat → MulticallResult) : Multicall :=
  fun pairs => .ok (pairs.map outcome)

/-- The result of one call, `none` for a failure. -/
def MulticallResult.result? : MulticallResult → Option Nat
  | .success nonceValue => some nonceValue
  | .failure _ => none

theorem MulticallResult.result?_eq_some {result : MulticallResult} {nonceValue : Nat} :
    result.result? = some nonceValue ↔ result = .success nonceValue := by
  cases result <;> simp [MulticallResult.result?]

/-- What the loop pushes for `pair`: on a success, the snapshot's operations of
that pair whose nonce value is the returned one. -/
def pushedFor (outstandingOps : List UserOperationInfo) (outcome : Address × Nat → MulticallResult)
    (pair : Address × Nat) : List UserOperationInfo :=
  match outcome pair with
  | .success nonceValue => outstandingOps.filter (nonceMatches pair.1 pair.2 nonceValue)
  | .failure _ => []

/-! ## The loop with one outcome per pair -/

variable {outstandingOps : List UserOperationInfo} (outcome : Address × Nat → MulticallResult)

theorem collectAvailable_perPair :
    ∀ (pairs : List (Address × Nat)) (acc : List UserOperationInfo),
      collectAvailable outstandingOps acc pairs (pairs.map outcome) =
        .ok (acc ++ pairs.flatMap (pushedFor outstandingOps outcome))
  | [], acc => by simp [collectAvailable]
  | (sender, nonceKey) :: pairs, acc => by
      rw [List.map_cons, List.flatMap_cons, ← List.append_assoc, pushedFor]
      cases outcome (sender, nonceKey) <;>
        simp only [collectAvailable, collectAvailable_perPair pairs, List.append_nil]

theorem reconcile_perPair (hS : HexSenders outstandingOps) :
    reconcile outstandingOps (perPair outcome) =
      .ok ((snapshotPairs outstandingOps).flatMap (pushedFor outstandingOps outcome)) := by
  simp only [reconcile, allSendersAndNonceKeys_eq hS, perPair, bind, Except.bind, Except.mapError,
    collectAvailable_perPair, List.nil_append]

/-- A run without interleaving publishes the pushed blocks, pair after pair, and
changes nothing else. -/
theorem updateAvailableUserOperations_perPair (s : MemoryStore)
    (hS : HexSenders s.outstandingUserOperations) :
    s.updateAvailableUserOperations (perPair outcome) =
      { s with
        avaiableOutstandingUserOperations := (snapshotPairs s.outstandingUserOperations).flatMap
          (pushedFor s.outstandingUserOperations outcome) } := by
  simp only [updateAvailableUserOperations, publishAvailable, reconcile_perPair outcome hS]

theorem returnedNonce_map {pair : Address × Nat} :
    ∀ {pairs : List (Address × Nat)}, pair ∈ pairs →
      returnedNonce pairs (pairs.map outcome) pair = (outcome pair).result?
  | q :: pairs, h => by
      by_cases hq : q = pair
      · subst hq
        simp only [List.map_cons, returnedNonce, if_pos]
        cases outcome q <;> rfl
      · simp only [List.map_cons, returnedNonce, if_neg hq]
        exact returnedNonce_map (List.mem_of_ne_of_mem (Ne.symm hq) h)

/-- The operations whose pair's call succeeded with their nonce value. -/
theorem promoted_perPair :
    promoted outstandingOps (snapshotPairs outstandingOps) ((snapshotPairs outstandingOps).map outcome) =
      outstandingOps.filter fun op =>
        outcome (senderNonceKey op.userOperation) = .success (getNonceKeyAndValue op.userOperation).2 :=
  List.filter_congr fun op hop => by
    have hpair : senderNonceKey op.userOperation ∈ snapshotPairs outstandingOps :=
      mem_setSpread.2 (List.mem_map_of_mem _ hop)
    rw [returnedNonce_map outcome hpair]
    exact decide_eq_decide.2 MulticallResult.result?_eq_some

theorem published_perm_filter (s : MemoryStore) (hS : HexSenders s.outstandingUserOperations) :
    (s.updateAvailableUserOperations (perPair outcome)).avaiableOutstandingUserOperations ~
      s.outstandingUserOperations.filter fun op =>
        outcome (senderNonceKey op.userOperation) = .success (getNonceKeyAndValue op.userOperation).2 := by
  obtain ⟨results, hresults, hperm⟩ := reconcile_perm hS (reconcile_perPair outcome hS)
  obtain rfl := (Except.ok.inj hresults).symm
  rw [updateAvailableUserOperations_perPair outcome s hS, ← promoted_perPair]
  exact hperm

/-- For every snapshot with hex senders and every outcome of the pairs' calls, a
run without interleaving sets the available list, and only it, to a
permutation of the snapshot's operations whose pair's call returned their nonce
value. -/
theorem updateAvailableUserOperations_perm (s : MemoryStore)
    (hS : HexSenders s.outstandingUserOperations) :
    ∃ available, s.updateAvailableUserOperations (perPair outcome) =
        { s with avaiableOutstandingUserOperations := available } ∧
      available ~ s.outstandingUserOperations.filter fun op =>
        outcome (senderNonceKey op.userOperation) = .success (getNonceKeyAndValue op.userOperation).2 :=
  ⟨_, updateAvailableUserOperations_perPair outcome s hS, by
    simpa only [updateAvailableUserOperations_perPair outcome s hS] using
      published_perm_filter outcome s hS⟩

/-- Two pairs, one whose call fails and one whose call returns the nonce value
of one of its two operations. -/
theorem updateAvailableUserOperations_perm_failed_call :
    let a0 : UserOperationInfo := ⟨⟨['0', 'x', 'a'], 0⟩, ['0', 'x', '1']⟩
    let a1 : UserOperationInfo := ⟨⟨['0', 'x', 'a'], 1⟩, ['0', 'x', '2']⟩
    let b0 : UserOperationInfo := ⟨⟨['0', 'x', 'b'], 0⟩, ['0', 'x', '3']⟩
    let s : MemoryStore := { empty with outstandingUserOperations := [a0, a1, b0] }
    let outcome : Address × Nat → MulticallResult :=
      fun pair => if pair.1 = ['0', 'x', 'a'] then .success 1 else .failure "execution reverted"
    HexSenders s.outstandingUserOperations ∧
      ∃ available, s.updateAvailableUserOperations (perPair outcome) =
          { s with avaiableOutstandingUserOperations := available } ∧
        available ~ s.outstandingUserOperations.filter fun op =>
          outcome (senderNonceKey op.userOperation) = .success (getNonceKeyAndValue op.userOperation).2 :=
  have hS : HexSenders [⟨⟨['0', 'x', 'a'], 0⟩, ['0', 'x', '1']⟩, ⟨⟨['0', 'x', 'a'], 1⟩, ['0', 'x', '2']⟩,
      ⟨⟨['0', 'x', 'b'], 0⟩, ['0', 'x', '3']⟩] := by simp [HexSenders]
  ⟨hS, updateAvailableUserOperations_perm _ _ hS⟩

theorem mem_published_perPair (s : MemoryStore) (hS : HexSenders s.outstandingUserOperations)
    {op : UserOperationInfo} :
    op ∈ (s.updateAvailableUserOperations (perPair outcome)).avaiableOutstandingUserOperations ↔
      op ∈ s.outstandingUserOperations ∧
        outcome (senderNonceKey op.userOperation) = .success (getNonceKeyAndValue op.userOperation).2 := by
  rw [(published_perm_filter outcome s hS).mem_iff, List.mem_filter, decide_eq_true_iff]

/-! ## Order -/

theorem pushedFor_sublist (pair : Address × Nat) : pushedFor outstandingOps outcome pair <+ outstandingOps := by
  unfold pushedFor
  split
  exacts [List.filter_sublist _, List.nil_sublist _]

/-- The block pushed for `q` holds operations of the pair `q` only. -/
theorem pushedFor_filter_pair (pair q : Address × Nat) :
    (pushedFor outstandingOps outcome q).filter (fun op => senderNonceKey op.userOperation = pair) =
      if q = pair then pushedFor outstandingOps outcome q else [] := by
  have hq : ∀ op ∈ pushedFor outstandingOps outcome q, senderNonceKey op.userOperation = q := by
    unfold pushedFor
    split
    · exact fun op hop => (nonceMatches_iff.1 (List.mem_filter.1 hop).2).1
    · simp
  split_ifs with hpair
  · exact List.filter_eq_self.2 fun op hop => by simp [hq op hop, hpair]
  · exact List.filter_eq_nil_iff.2 fun op hop => by simp [hq op hop, hpair]

theorem flatMap_pushedFor_filter_sublist (pair : Address × Nat) :
    ∀ {pairs : List (Address × Nat)}, pairs.Nodup →
      (pairs.flatMap (pushedFor outstandingOps outcome)).filter
        (fun op => senderNonceKey op.userOperation = pair) <+ outstandingOps
  | [], _ => List.nil_sublist _
  | q :: pairs, hnodup => by
      rw [List.nodup_cons] at hnodup
      rw [List.flatMap_cons, List.filter_append, pushedFor_filter_pair]
      split_ifs with hq
      · -- the other pairs push nothing of `pair`
        subst hq
        have hrest : (pairs.flatMap (pushedFor outstandingOps outcome)).filter
            (fun op => senderNonceKey op.userOperation = q) = [] := by
          rw [List.filter_flatMap, List.flatMap_eq_nil_iff]
          intro q' hq'
          rw [pushedFor_filter_pair, if_neg fun h : q' = q => hnodup.1 (h ▸ hq')]
        rw [hrest, List.append_nil]
        exact pushedFor_sublist outcome q
      · exact flatMap_pushedFor_filter_sublist pair hnodup.2

/-- The published operations of one pair are in the order of the snapshot. -/
theorem published_pair_sublist (s : MemoryStore) (hS : HexSenders s.outstandingUserOperations)
    (pair : Address × Nat) :
    (s.updateAvailableUserOperations (perPair outcome)).avaiableOutstandingUserOperations.filter
      (fun op => senderNonceKey op.userOperation = pair) <+ s.outstandingUserOperations := by
  rw [updateAvailableUserOperations_perPair outcome s hS]
  exact flatMap_pushedFor_filter_sublist outcome pair (nodup_setSpread _)

/-- In the run of `updateAvailableUserOperations_reorders`, the published
operations of the sender `a` keep their order. -/
theorem published_pair_sublist_reordered :
    let s : MemoryStore := { empty with outstandingUserOperations :=
      [⟨⟨['0', 'x', 'a'], 0⟩, ['0', 'x', '1']⟩, ⟨⟨['0', 'x', 'b'], 0⟩, ['0', 'x', '2']⟩,
        ⟨⟨['0', 'x', 'a'], 1⟩, ['0', 'x', '3']⟩] }
    let outcome : Address × Nat → MulticallResult :=
      fun pair => .success (if pair.1 = ['0', 'x', 'a'] then 1 else 0)
    HexSenders s.outstandingUserOperations ∧
      (s.updateAvailableUserOperations (perPair outcome)).avaiableOutstandingUserOperations.filter
        (fun op => senderNonceKey op.userOperation = (['0', 'x', 'a'], 0)) <+ s.outstandingUserOperations :=
  have hS : HexSenders [⟨⟨['0', 'x', 'a'], 0⟩, ['0', 'x', '1']⟩, ⟨⟨['0', 'x', 'b'], 0⟩, ['0', 'x', '2']⟩,
      ⟨⟨['0', 'x', 'a'], 1⟩, ['0', 'x', '3']⟩] := by simp [HexSenders]
  ⟨hS, published_pair_sublist _ _ hS _⟩

/-- Two senders' operations admitted as `a0, b0, a1`, with the chain at nonce 1
for `a` (so `a0` is already included) and at nonce 0 for `b`: the pair of `a`
occurs first, so its operation `a1` is published before `b0`, which was
admitted before it. -/
theorem updateAvailableUserOperations_reorders :
    let a0 : UserOperationInfo := ⟨⟨['0', 'x', 'a'], 0⟩, ['0', 'x', '1']⟩
    let b0 : UserOperationInfo := ⟨⟨['0', 'x', 'b'], 0⟩, ['0', 'x', '2']⟩
    let a1 : UserOperationInfo := ⟨⟨['0', 'x', 'a'], 1⟩, ['0', 'x', '3']⟩
    let s : MemoryStore := { empty with outstandingUserOperations := [a0, b0, a1] }
    let outcome : Address × Nat → MulticallResult :=
      fun pair => .success (if pair.1 = ['0', 'x', 'a'] then 1 else 0)
    let published := (s.updateAvailableUserOperations (perPair outcome)).avaiableOutstandingUserOperations
    HexSenders s.outstandingUserOperations ∧ published = [a1, b0] ∧
      ¬ published <+ s.outstandingUserOperations :=
  ⟨by simp [HexSenders], by decide, by decide⟩

/-! ## Against the EntryPoint's nonces -/

/-- The EntryPoint's `NonceManager.getNonce`, which is not in the repository:
`nonceSequenceNumber[sender][key] | (uint256(key) << 64)`. -/
def getNonce (nonceSequenceNumber : Address → Nat → Nat) (sender : Address) (key : Nat) : Nat :=
  nonceSequenceNumber sender key ||| (key <<< 64)

/-- The multicall of `getNonce` against an EntryPoint whose calls all succeed. -/
def entryPointMulticall (nonceSequenceNumber : Address → Nat → Nat) : Multicall :=
  perPair fun pair => .success (getNonce nonceSequenceNumber pair.1 pair.2)

/-- A packed nonce is a 64-bit value only for key 0, where it is the sequence number. -/
theorem getNonce_eq_iff {nonceSequenceNumber : Address → Nat → Nat} {sender : Address}
    {key nonceValue : Nat} (hvalue : nonceValue < 2 ^ 64) :
    getNonce nonceSequenceNumber sender key = nonceValue ↔
      key = 0 ∧ nonceSequenceNumber sender key = nonceValue := by
  rcases Nat.eq_zero_or_pos key with rfl | hkey
  · simp [getNonce]
  · have hpacked : 2 ^ 64 ≤ getNonce nonceSequenceNumber sender key := calc
      2 ^ 64 ≤ key <<< 64 := by rw [Nat.shiftLeft_eq]; exact Nat.le_mul_of_pos_left _ hkey
      _ ≤ getNonce nonceSequenceNumber sender key := Nat.le_of_testBit fun i h => by simp [getNonce, h]
    simp only [Nat.pos_iff_ne_zero.1 hkey, false_and, iff_false]
    omega

/-- Against the EntryPoint, an operation of the snapshot is published exactly
when its nonce key is 0 and its nonce value is the sequence number of key 0. -/
theorem published_iff_nonceManager (s : MemoryStore) (hS : HexSenders s.outstandingUserOperations)
    (nonceSequenceNumber : Address → Nat → Nat) {op : UserOperationInfo}
    (hop : op ∈ s.outstandingUserOperations) :
    op ∈ (s.updateAvailableUserOperations (entryPointMulticall nonceSequenceNumber)).avaiableOutstandingUserOperations ↔
      (getNonceKeyAndValue op.userOperation).1 = 0 ∧
        (getNonceKeyAndValue op.userOperation).2 = nonceSequenceNumber op.userOperation.sender 0 := by
  have hbound : (getNonceKeyAndValue op.userOperation).2 < 2 ^ 64 := Nat.mod_lt _ (Nat.two_pow_pos 64)
  rw [entryPointMulticall, mem_published_perPair _ s hS, MulticallResult.success.injEq,
    getNonce_eq_iff hbound]
  simp only [hop, true_and, senderNonceKey]
  constructor
  · rintro ⟨hkey, hvalue⟩
    exact ⟨hkey, by rw [← hvalue, hkey]⟩
  · rintro ⟨hkey, hvalue⟩
    exact ⟨hkey, by rw [hkey, hvalue]⟩

/-- An operation of key 0 at the EntryPoint's sequence number is published. -/
theorem published_iff_nonceManager_key_zero :
    let op : UserOperationInfo := ⟨⟨['0', 'x', 'a'], 3⟩, ['0', 'x', '1']⟩
    let s : MemoryStore := { empty with outstandingUserOperations := [op] }
    let nonceSequenceNumber : Address → Nat → Nat := fun _ _ => 3
    HexSenders s.outstandingUserOperations ∧ op ∈ s.outstandingUserOperations ∧
      (op ∈ (s.updateAvailableUserOperations (entryPointMulticall nonceSequenceNumber)).avaiableOutstandingUserOperations ↔
        (getNonceKeyAndValue op.userOperation).1 = 0 ∧
          (getNonceKeyAndValue op.userOperation).2 = nonceSequenceNumber op.userOperation.sender 0) :=
  have hS : HexSenders [⟨⟨['0', 'x', 'a'], 3⟩, ['0', 'x', '1']⟩] := by simp [HexSenders]
  have hop : (⟨⟨['0', 'x', 'a'], 3⟩, ['0', 'x', '1']⟩ : UserOperationInfo) ∈
      [⟨⟨['0', 'x', 'a'], 3⟩, ['0', 'x', '1']⟩] := List.mem_singleton_self _
  ⟨hS, hop, published_iff_nonceManager _ hS _ hop⟩

/-- An operation of nonce key 1 and nonce value 0, against an EntryPoint whose
sequence numbers are all 0: its nonce is the next one the EntryPoint accepts,
and it is not published. -/
theorem updateAvailableUserOperations_nonzero_key :
    let op : UserOperationInfo := ⟨⟨['0', 'x', 'a'], 2 ^ 64⟩, ['0', 'x', '1']⟩
    let s : MemoryStore := { empty with outstandingUserOperations := [op] }
    let nonceSequenceNumber : Address → Nat → Nat := fun _ _ => 0
    getNonceKeyAndValue op.userOperation = (1, 0) ∧
      (getNonceKeyAndValue op.userOperation).2 = nonceSequenceNumber op.userOperation.sender 1 ∧
      (s.updateAvailableUserOperations (entryPointMulticall nonceSequenceNumber)).avaiableOutstandingUserOperations = [] :=
  ⟨by decide, rfl, by decide⟩

/-! ## A run without interleaving restores the invariant -/

/-- For every state of an interleaving with no run suspended and hex senders in
the outstanding list, whatever came before (a `clear("outstanding")`, or a run
that published a snapshot taken before a removal), a run whose snapshot and
publish follow each other, against any per-pair outcome, brings the count of
every hash in the available list back to at most its count in the outstanding
list, and every later call that adds only hex senders and does not clear the
outstanding list keeps it there. -/
theorem reconciliation_restores_consistency (r : Reconciling) (hidle : r.inFlight = none)
    (hS : HexSenders r.store.outstandingUserOperations) (ops : List MempoolOp)
    (hops : ∀ op ∈ ops, op.Admissible) (userOpHash : HexData32) :
    let s := (r.run ([.snapshot, .publish (perPair outcome)] ++ ops.map .call)).store
    hashCount userOpHash s.avaiableOutstandingUserOperations ≤
      hashCount userOpHash s.outstandingUserOperations := by
  obtain ⟨store, inFlight⟩ := r
  obtain rfl : inFlight = none := hidle
  have hout : (store.updateAvailableUserOperations (perPair outcome)).outstandingUserOperations =
      store.outstandingUserOperations := by
    rw [updateAvailableUserOperations_perPair outcome store hS]
  have hconsistent : Consistent (store.updateAvailableUserOperations (perPair outcome)) :=
    ⟨hout ▸ hS, fun h => hout ▸
      ((published_perm_filter outcome store hS).subperm.trans (List.filter_sublist _).subperm).countP_le _⟩
  intro s
  rw [show s = (store.updateAvailableUserOperations (perPair outcome)).run ops by
    simp only [s, Reconciling.run_append, Reconciling.run_calls]; rfl]
  exact (consistent_run hconsistent hops).availableLe userOpHash

/-- An operation made available, then the outstanding list cleared and the
operation added again: the stale entry is counted once more than the
outstanding one until the next run, after which the counts agree. -/
theorem reconciliation_restores_consistency_after_clear :
    let op : UserOperationInfo := ⟨⟨['0', 'x', 'a'], 5⟩, ['0', 'x', '1']⟩
    let outcome : Address × Nat → MulticallResult := fun _ => .success 5
    let r := (⟨empty, none⟩ : Reconciling).run
      [.call (.addOutstanding op), .call (.updateAvailableUserOperations (perPair outcome)),
        .call (.clear .outstanding)]
    hashCount op.userOperationHash r.store.outstandingUserOperations <
        hashCount op.userOperationHash r.store.avaiableOutstandingUserOperations ∧
      r.inFlight = none ∧ HexSenders r.store.outstandingUserOperations ∧
      (∀ o ∈ [MempoolOp.addOutstanding op], o.Admissible) ∧
      let s := (r.run ([.snapshot, .publish (perPair outcome)] ++
        [MempoolOp.addOutstanding op].map .call)).store
      hashCount op.userOperationHash s.avaiableOutstandingUserOperations ≤
        hashCount op.userOperationHash s.outstandingUserOperations :=
  have hS : HexSenders ((⟨empty, none⟩ : Reconciling).run
      [.call (.addOutstanding ⟨⟨['0', 'x', 'a'], 5⟩, ['0', 'x', '1']⟩),
        .call (.updateAvailableUserOperations (perPair fun _ => .success 5)),
        .call (.clear .outstanding)]).store.outstandingUserOperations := fun _ h => absurd h (List.not_mem_nil _)
  have hops : ∀ o ∈ [MempoolOp.addOutstanding ⟨⟨['0', 'x', 'a'], 5⟩, ['0', 'x', '1']⟩], o.Admissible := by
    simp [MempoolOp.Admissible]
  ⟨by decide, rfl, hS, hops, reconciliation_restores_consistency _ _ rfl hS _ hops _⟩

end AltoBundler.MemoryStore
