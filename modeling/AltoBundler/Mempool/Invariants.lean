import AltoBundler.Mempool.Reconcile

/-!
# Invariants of runs of the mempool

Facts about every run of `MemoryStore` methods called one at a time.

* `available_hashCount_le`: the available list is a sub-multiset of the
  outstanding list by hash, for runs that add only hex senders to the
  outstanding list and never `clear` it.  The invariant `Consistent` carries
  the hex senders along, since `reconcile_perm` needs them; `removeOutstanding`
  keeps it because it takes one entry of the hash from each list it finds it
  in, and a reconciliation publishes a sublist of the outstanding list.
* The `userOperationsInMempool` gauge, through its drift above the length of its
  list.  `gaugeDrift_apply_cases` says once what a call can do to it: `clear`
  and a `removeOutstanding` that returns before its decrement (when the
  operation is not available, `removeOutstanding_unpromoted_gauge`) raise it,
  every other call keeps it.  So along runs without `clear` the processing and
  submitted gauges equal their list lengths
  (`userOperationsInMempool_exact_without_clear`), and along every run no gauge
  comes back once it is off (`userOperationsInMempool_drift_persists`).
* `lists_keep_admission_order`: each list keeps the order in which its
  operations were added since it was last cleared.
-/

namespace AltoBundler.MemoryStore

open scoped List

/-- The number of entries with hash `userOpHash`. -/
def hashCount (userOpHash : HexData32) (ops : List UserOperationInfo) : Nat :=
  ops.countP fun op => op.userOperationHash = userOpHash

theorem hashCount_of_perm {userOpHash : HexData32} {ops rest : List UserOperationInfo}
    {found : UserOperationInfo} (h : ops ~ found :: rest) :
    hashCount userOpHash ops =
      hashCount userOpHash rest + if found.userOperationHash = userOpHash then 1 else 0 := by
  rw [hashCount, h.countP_eq, List.countP_cons, hashCount]
  simp

theorem hashCount_eq_zero {userOpHash : HexData32} {ops : List UserOperationInfo}
    (h : ∀ op ∈ ops, op.userOperationHash ≠ userOpHash) : hashCount userOpHash ops = 0 :=
  List.countP_eq_zero.2 fun op hop => by simpa using h op hop

/-! ## The available list is a sub-multiset of the outstanding list -/

/-- The calls of the runs considered: outstanding operations have hex senders,
and the outstanding list is never cleared. -/
def MempoolOp.Admissible : MempoolOp → Prop
  | .addOutstanding op => '_' ∉ op.userOperation.sender
  | .clear .outstanding => False
  | _ => True

/-- The invariant of those runs. -/
structure Consistent (s : MemoryStore) : Prop where
  hexSenders : HexSenders s.outstandingUserOperations
  availableLe : ∀ userOpHash, hashCount userOpHash s.avaiableOutstandingUserOperations ≤
    hashCount userOpHash s.outstandingUserOperations

theorem consistent_empty : Consistent empty :=
  ⟨fun _ h => (List.not_mem_nil _ h).elim, fun _ => le_rfl⟩

variable {s : MemoryStore}

theorem consistent_addOutstanding (hs : Consistent s) {op : UserOperationInfo}
    (hop : '_' ∉ op.userOperation.sender) : Consistent (s.addOutstanding op) := by
  refine ⟨fun o ho => ?_, fun h => ?_⟩
  · rcases List.mem_append.1 ho with ho | ho
    exacts [hs.hexSenders o ho, List.mem_singleton.1 ho ▸ hop]
  · simpa [addOutstanding, hashCount, List.countP_append] using
      (hs.availableLe h).trans (Nat.le_add_right _ _)

theorem consistent_removeOutstanding (hs : Consistent s) (userOpHash : HexData32) :
    Consistent (s.removeOutstanding userOpHash) := by
  unfold removeOutstanding
  cases hout : spliceFirst UserOperationInfo.userOperationHash userOpHash
      s.outstandingUserOperations with
  | none => exact hs
  | some outstanding =>
      obtain ⟨found, hfound, hperm⟩ := spliceFirst_eq_some hout
      have hhex : HexSenders outstanding := fun o ho => hs.hexSenders o (hperm.symm.subset (.tail _ ho))
      cases havail : spliceFirst UserOperationInfo.userOperationHash userOpHash
          s.avaiableOutstandingUserOperations with
      | none =>
          refine ⟨hhex, fun h => ?_⟩
          have hle := hs.availableLe h
          rw [hashCount_of_perm hperm] at hle
          by_cases hh : userOpHash = h
          · simp [hashCount_eq_zero (hh ▸ spliceFirst_eq_none havail)]
          · simpa [hfound, hh] using hle
      | some available =>
          obtain ⟨found', hfound', hperm'⟩ := spliceFirst_eq_some havail
          refine ⟨hhex, fun h => ?_⟩
          have hle := hs.availableLe h
          rw [hashCount_of_perm hperm, hashCount_of_perm hperm', hfound, hfound'] at hle
          simpa using hle

theorem consistent_updateAvailableUserOperations (hs : Consistent s) (multicall : Multicall) :
    Consistent (s.updateAvailableUserOperations multicall) := by
  unfold updateAvailableUserOperations publishAvailable
  split
  · rename_i available hreconcile
    obtain ⟨results, -, hperm⟩ := reconcile_perm hs.hexSenders hreconcile
    exact ⟨hs.hexSenders, fun h =>
      ((hperm.subperm.trans (promoted_subperm _ _ results)).countP_le _)⟩
  · exact hs

/-- One admissible call keeps the invariant. -/
theorem consistent_apply (hs : Consistent s) :
    ∀ {op : MempoolOp}, op.Admissible → Consistent (s.apply op)
  | .addOutstanding _, hop => consistent_addOutstanding hs hop
  | .addProcessing _, _ | .addSubmitted _, _ => ⟨hs.1, hs.2⟩
  | .removeOutstanding userOpHash, _ => consistent_removeOutstanding hs userOpHash
  | .removeProcessing userOpHash, _ => by
      simp only [apply, removeProcessing]; split <;> exact ⟨hs.1, hs.2⟩
  | .removeSubmitted userOpHash, _ => by
      simp only [apply, removeSubmitted]; split <;> exact ⟨hs.1, hs.2⟩
  | .clear .processing, _ | .clear .submitted, _ => ⟨hs.1, hs.2⟩
  | .updateAvailableUserOperations multicall, _ => consistent_updateAvailableUserOperations hs multicall

theorem consistent_run :
    ∀ {s : MemoryStore} {ops : List MempoolOp}, Consistent s → (∀ op ∈ ops, op.Admissible) →
      Consistent (s.run ops)
  | _, [], hs, _ => hs
  | s, op :: _, hs, hops =>
      consistent_run (s := s.apply op) (consistent_apply hs (hops op (List.mem_cons_self _ _)))
        fun op' hop' => hops op' (List.mem_cons_of_mem _ hop')

/-- Along every run of admissible calls from the empty store, each hash occurs in
the available list at most as often as in the outstanding list. -/
theorem available_hashCount_le (ops : List MempoolOp) (hops : ∀ op ∈ ops, op.Admissible)
    (userOpHash : HexData32) :
    hashCount userOpHash (empty.run ops).avaiableOutstandingUserOperations ≤
      hashCount userOpHash (empty.run ops).outstandingUserOperations :=
  (consistent_run consistent_empty hops).availableLe userOpHash

theorem available_hashCount_le_after_removal :
    let op : UserOperationInfo := ⟨⟨['0', 'x', 'a'], 5⟩, ['0', 'x', '1']⟩
    let ops := [MempoolOp.addOutstanding op, MempoolOp.addOutstanding op,
      .updateAvailableUserOperations fun pairs => .ok (pairs.map fun _ => .success 5),
      .removeOutstanding op.userOperationHash]
    (∀ o ∈ ops, o.Admissible) ∧
      hashCount op.userOperationHash (empty.run ops).avaiableOutstandingUserOperations ≤
        hashCount op.userOperationHash (empty.run ops).outstandingUserOperations :=
  ⟨by simp [MempoolOp.Admissible], available_hashCount_le _ (by simp [MempoolOp.Admissible]) _⟩

/-! ## The `userOperationsInMempool` gauge -/

/-- Adding an operation and removing it before any reconciliation leaves the
outstanding gauge at `1` over an empty outstanding list. -/
theorem removeOutstanding_unpromoted_gauge :
    let op : UserOperationInfo := ⟨⟨['0', 'x', 'a'], 0⟩, ['0', 'x', '1']⟩
    let s := empty.run [.addOutstanding op, .removeOutstanding op.userOperationHash]
    s.userOperationsInMempool .outstanding = 1 ∧ s.outstandingUserOperations.length = 0 := by
  decide

/-- The length of the list that the gauge's `status` label counts. -/
def statusLength (s : MemoryStore) : MempoolStatus → Nat
  | .outstanding => s.outstandingUserOperations.length
  | .processing => s.processingUserOperations.length
  | .submitted => s.submittedUserOperations.length

/-- How far the gauge of `status` is above the length of its list. -/
def gaugeDrift (s : MemoryStore) (status : MempoolStatus) : Int :=
  s.userOperationsInMempool status - s.statusLength status

/-- `clear` empties a list and leaves its gauge alone. -/
def MempoolOp.IsClear : MempoolOp → Prop
  | .clear _ => True
  | _ => False

/-- What one call does to the drift of a label: nothing, except that `clear`
drops a list and not its gauge, and that `removeOutstanding` of an operation
that is not available drops the entry and not the outstanding gauge.  Adds and
the other removals move each gauge with its list. -/
theorem gaugeDrift_apply_cases (op : MempoolOp) (status : MempoolStatus) :
    (s.apply op).gaugeDrift status = s.gaugeDrift status ∨
      (op.IsClear ∧ s.gaugeDrift status ≤ (s.apply op).gaugeDrift status) ∨
      (status = .outstanding ∧ (s.apply op).gaugeDrift status = s.gaugeDrift status + 1) := by
  cases op with
  | addOutstanding _ | addProcessing _ | addSubmitted _ =>
      refine .inl ?_
      -- the label of the call moves gauge and list by one; the other two stay
      cases status <;>
        simp only [apply, addOutstanding, addProcessing, addSubmitted, gaugeDrift, statusLength, gaugeAdd_apply,
          List.length_append, List.length_singleton, Nat.cast_add, Nat.cast_one, if_true, reduceCtorEq,
          if_false, Int.add_zero]
      omega
  | removeOutstanding userOpHash =>
      simp only [apply, removeOutstanding]
      split
      · exact .inl rfl
      · rename_i outstanding hout
        have := spliceFirst_length hout
        split
        · -- not available: the early return skips the decrement
          cases status
          · exact .inr (.inr ⟨rfl, by simp only [gaugeDrift, statusLength]; omega⟩)
          all_goals exact .inl rfl
        · refine .inl ?_
          cases status <;>
            simp only [gaugeDrift, statusLength, gaugeAdd_apply, if_true, reduceCtorEq, if_false,
              Int.add_zero]
          omega
  | removeProcessing userOpHash | removeSubmitted userOpHash =>
      simp only [apply, removeProcessing, removeSubmitted]
      split
      · exact .inl rfl
      · rename_i rest hrest
        have := spliceFirst_length hrest
        refine .inl ?_
        cases status <;>
          simp only [gaugeDrift, statusLength, gaugeAdd_apply, if_true, reduceCtorEq, if_false,
            Int.add_zero]
        omega
  | clear status' =>
      refine .inr (.inl ⟨trivial, ?_⟩)
      cases status' <;> cases status <;>
        simp only [apply, clear, gaugeDrift, statusLength, List.length_nil, Nat.cast_zero] <;> omega
  | updateAvailableUserOperations multicall =>
      simp only [apply, updateAvailableUserOperations, publishAvailable]
      split <;> exact .inl rfl

/-- No call lowers the drift. -/
theorem gaugeDrift_le_apply (op : MempoolOp) (status : MempoolStatus) :
    s.gaugeDrift status ≤ (s.apply op).gaugeDrift status := by
  rcases s.gaugeDrift_apply_cases op status with h | ⟨-, h⟩ | ⟨-, h⟩ <;> omega

theorem gaugeDrift_le_run (status : MempoolStatus) :
    ∀ (s : MemoryStore) (ops : List MempoolOp), s.gaugeDrift status ≤ (s.run ops).gaugeDrift status
  | _, [] => le_rfl
  | s, op :: ops => (s.gaugeDrift_le_apply op status).trans (gaugeDrift_le_run status (s.apply op) ops)

/-- Apart from `clear`, no call moves the drift of the processing and submitted
gauges: their removals decrement right after the splice. -/
theorem gaugeDrift_apply_of_not_clear {op : MempoolOp} (hop : ¬op.IsClear) {status : MempoolStatus}
    (hstatus : status ≠ .outstanding) : (s.apply op).gaugeDrift status = s.gaugeDrift status :=
  (s.gaugeDrift_apply_cases op status).resolve_right fun h => h.elim (hop ·.1) (hstatus ·.1)

theorem gaugeDrift_run_of_not_clear {status : MempoolStatus} (hstatus : status ≠ .outstanding) :
    ∀ (ops : List MempoolOp) (s : MemoryStore), (∀ op ∈ ops, ¬op.IsClear) →
      (s.run ops).gaugeDrift status = s.gaugeDrift status
  | [], _, _ => rfl
  | op :: ops, s, hops =>
      (gaugeDrift_run_of_not_clear hstatus ops (s.apply op) fun op' hop' => hops op' (.tail _ hop')).trans
        (s.gaugeDrift_apply_of_not_clear (hops op (.head _)) hstatus)

theorem gaugeDrift_empty (status : MempoolStatus) : empty.gaugeDrift status = 0 := by
  cases status <;> rfl

/-- For every run from the empty store without `clear`, the processing and
submitted gauges equal the lengths of their lists after every call: unlike
`removeOutstanding` (`removeOutstanding_unpromoted_gauge`), `removeProcessing`
and `removeSubmitted` decrement right after their splice. -/
theorem userOperationsInMempool_exact_without_clear (ops : List MempoolOp)
    (hops : ∀ op ∈ ops, ¬op.IsClear) :
    let s := empty.run ops
    s.userOperationsInMempool .processing = s.processingUserOperations.length ∧
      s.userOperationsInMempool .submitted = s.submittedUserOperations.length := by
  have hprocessing := gaugeDrift_run_of_not_clear (by decide : MempoolStatus.processing ≠ .outstanding) ops
    empty hops
  have hsubmitted := gaugeDrift_run_of_not_clear (by decide : MempoolStatus.submitted ≠ .outstanding) ops
    empty hops
  rw [gaugeDrift_empty] at hprocessing hsubmitted
  simp only [gaugeDrift, statusLength] at hprocessing hsubmitted
  exact ⟨by omega, by omega⟩

/-- The run of `removeOutstanding_unpromoted_gauge`, with a processing and a
submitted operation added and removed around it: the outstanding gauge is off
by one, the other two are exact. -/
theorem userOperationsInMempool_exact_without_clear_unpromoted :
    let op : UserOperationInfo := ⟨⟨['0', 'x', 'a'], 0⟩, ['0', 'x', '1']⟩
    let ops := [MempoolOp.addProcessing op, .addSubmitted ⟨op⟩, .addOutstanding op,
      .removeOutstanding op.userOperationHash, .removeProcessing op.userOperationHash]
    (∀ o ∈ ops, ¬o.IsClear) ∧
      (empty.run ops).userOperationsInMempool .processing = (empty.run ops).processingUserOperations.length ∧
        (empty.run ops).userOperationsInMempool .submitted = (empty.run ops).submittedUserOperations.length :=
  ⟨by simp [MempoolOp.IsClear], userOperationsInMempool_exact_without_clear _ (by simp [MempoolOp.IsClear])⟩

/-! ## The gauge never recovers -/

/-- For every store and every run of calls, `clear` included, the amount by which
each `userOperationsInMempool` gauge exceeds the length of its list never
decreases: once a `clear` or a `removeOutstanding` of an operation that is not
available has put a gauge off, no later call brings it back.  From the empty
store the gauges never count fewer operations than their lists hold. -/
theorem userOperationsInMempool_drift_persists :
    (∀ (s : MemoryStore) (ops : List MempoolOp) (status : MempoolStatus),
      s.gaugeDrift status ≤ (s.run ops).gaugeDrift status) ∧
    ∀ (ops : List MempoolOp) (status : MempoolStatus),
      ((empty.run ops).statusLength status : Int) ≤ (empty.run ops).userOperationsInMempool status := by
  refine ⟨fun s ops status => gaugeDrift_le_run status s ops, fun ops status => ?_⟩
  have hdrift := gaugeDrift_le_run status empty ops
  rw [gaugeDrift_empty] at hdrift
  simp only [gaugeDrift] at hdrift
  omega

/-! ## The lists keep the order of admission -/

/-- The operations added to each list since it was last cleared, oldest first. -/
structure Admitted where
  outstanding : List UserOperationInfo
  processing : List UserOperationInfo
  submitted : List SubmittedUserOperation

/-- What a call adds to the history of a list, and what a `clear` forgets. -/
def Admitted.record (a : Admitted) : MempoolOp → Admitted
  | .addOutstanding op => { a with outstanding := a.outstanding ++ [op] }
  | .addProcessing op => { a with processing := a.processing ++ [op] }
  | .addSubmitted op => { a with submitted := a.submitted ++ [op] }
  | .clear .outstanding => { a with outstanding := [] }
  | .clear .processing => { a with processing := [] }
  | .clear .submitted => { a with submitted := [] }
  | _ => a

/-- The history of the calls `ops`. -/
def admitted (ops : List MempoolOp) : Admitted :=
  ops.foldl Admitted.record ⟨[], [], []⟩

/-- Each list is a subsequence of what was added to it since its last clear. -/
structure KeepsOrder (a : Admitted) (s : MemoryStore) : Prop where
  outstanding : s.outstandingUserOperations <+ a.outstanding
  processing : s.processingUserOperations <+ a.processing
  submitted : s.submittedUserOperations <+ a.submitted

theorem KeepsOrder.apply {a : Admitted} (h : KeepsOrder a s) :
    ∀ op : MempoolOp, KeepsOrder (a.record op) (s.apply op)
  | .addOutstanding _ => ⟨h.1.append (.refl _), h.2, h.3⟩
  | .addProcessing _ => ⟨h.1, h.2.append (.refl _), h.3⟩
  | .addSubmitted _ => ⟨h.1, h.2, h.3.append (.refl _)⟩
  | .removeOutstanding userOpHash => by
      simp only [MemoryStore.apply, removeOutstanding]
      split
      · exact h
      · rename_i outstanding hout
        have hsub := (spliceFirst_sublist hout).trans h.1
        split <;> exact ⟨hsub, h.2, h.3⟩
  | .removeProcessing userOpHash => by
      simp only [MemoryStore.apply, removeProcessing]
      split
      · exact h
      · exact ⟨h.1, (spliceFirst_sublist ‹_›).trans h.2, h.3⟩
  | .removeSubmitted userOpHash => by
      simp only [MemoryStore.apply, removeSubmitted]
      split
      · exact h
      · exact ⟨h.1, h.2, (spliceFirst_sublist ‹_›).trans h.3⟩
  | .clear .outstanding => ⟨.slnil, h.2, h.3⟩
  | .clear .processing => ⟨h.1, .slnil, h.3⟩
  | .clear .submitted => ⟨h.1, h.2, .slnil⟩
  | .updateAvailableUserOperations multicall => by
      simp only [MemoryStore.apply, updateAvailableUserOperations, publishAvailable]
      split <;> exact ⟨h.1, h.2, h.3⟩

theorem KeepsOrder.run :
    ∀ (ops : List MempoolOp) {a : Admitted} {s : MemoryStore}, KeepsOrder a s →
      KeepsOrder (ops.foldl Admitted.record a) (s.run ops)
  | [], _, _, h => h
  | op :: ops, _, _, h => KeepsOrder.run ops (h.apply op)

/-- For every run of calls from the empty store, `clear` included, the
outstanding, processing and submitted lists are each a subsequence of the
operations added to that list since it was last cleared, in the order they were
added: the store never reorders, duplicates or invents an entry, and a removal
takes out one entry and keeps the others in order. -/
theorem lists_keep_admission_order (ops : List MempoolOp) :
    (empty.run ops).outstandingUserOperations <+ (admitted ops).outstanding ∧
      (empty.run ops).processingUserOperations <+ (admitted ops).processing ∧
      (empty.run ops).submittedUserOperations <+ (admitted ops).submitted :=
  let h := KeepsOrder.run ops (a := ⟨[], [], []⟩) (s := empty) ⟨.slnil, .slnil, .slnil⟩
  ⟨h.1, h.2, h.3⟩

end AltoBundler.MemoryStore
