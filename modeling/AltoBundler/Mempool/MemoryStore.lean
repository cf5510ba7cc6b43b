import AltoBundler.Mempool.SenderNonceKey
import Mathlib.Logic.Function.Basic

/-!
# The in-memory mempool

`MemoryStore` keeps four lists of operations and the `userOperationsInMempool`
gauge.  Every method is synchronous except `updateAvailableUserOperations`,
which takes a snapshot of the outstanding list, awaits one `multicall` of the
EntryPoint's `getNonce(sender, key)` for the distinct pairs of the snapshot,
and then assigns the operations whose nonce value is the returned one to the
available list.  Here that method is cut at its await: `reconcile` computes the
new available list from a snapshot and a multicall, and
`updateAvailableUserOperations` is the run without interleaving.

The logger is left out: no method reads back what it logs.  The gauge keeps one
value per `status` label; its `chainId` and `network` labels are fixed per
store.  A method that throws leaves the store as it was, which is what
`MemoryStore.apply` records for the failing reconciliation.
-/

namespace AltoBundler

/-- The `status` label of the gauge, and the argument type of `clear`. -/
inductive MempoolStatus
  | outstanding
  | processing
  | submitted
  deriving DecidableEq, Repr

structure MemoryStore where
  outstandingUserOperations : List UserOperationInfo
  avaiableOutstandingUserOperations : List UserOperationInfo
  processingUserOperations : List UserOperationInfo
  submittedUserOperations : List SubmittedUserOperation
  /-- `userOperationsInMempool`, by `status` label. -/
  userOperationsInMempool : MempoolStatus → Int

namespace MemoryStore

/-- The store the constructor builds: four empty lists, and a gauge at `0`. -/
def empty : MemoryStore := ⟨[], [], [], [], fun _ => 0⟩

/-- `labels({ status }).inc()` and `.dec()` of the gauge. -/
def gaugeAdd (gauge : MempoolStatus → Int) (status : MempoolStatus) (delta : Int) :
    MempoolStatus → Int :=
  Function.update gauge status (gauge status + delta)

@[simp] theorem gaugeAdd_apply (gauge : MempoolStatus → Int) (status label : MempoolStatus)
    (delta : Int) :
    gaugeAdd gauge status delta label = gauge label + if label = status then delta else 0 := by
  by_cases h : label = status
  · subst h; simp [gaugeAdd]
  · simp [gaugeAdd, h]

/-! ## Adding and removing -/

/-- `findIndex` on the hash, then `splice(index, 1)`: the list without its first
entry of hash `userOpHash`, or `none` when `findIndex` returns `-1`. -/
def spliceFirst {α : Type} (hash : α → HexData32) (userOpHash : HexData32) :
    List α → Option (List α)
  | [] => none
  | op :: ops => if hash op = userOpHash then some ops else (spliceFirst hash userOpHash ops).map (op :: ·)

open scoped List in
theorem spliceFirst_eq_some {α : Type} {hash : α → HexData32} {userOpHash : HexData32} :
    ∀ {store rest : List α}, spliceFirst hash userOpHash store = some rest →
      ∃ op, hash op = userOpHash ∧ store ~ op :: rest
  | [], _, h => by cases h
  | op :: ops, rest, h => by
      unfold spliceFirst at h
      split at h
      · cases h
        exact ⟨op, ‹_›, .refl _⟩
      · obtain ⟨ops', hops, rfl⟩ := Option.map_eq_some'.1 h
        obtain ⟨found, hfound, hperm⟩ := spliceFirst_eq_some hops
        exact ⟨found, hfound, (hperm.cons op).trans (.swap _ _ _)⟩

theorem spliceFirst_eq_none {α : Type} {hash : α → HexData32} {userOpHash : HexData32} :
    ∀ {store : List α}, spliceFirst hash userOpHash store = none → ∀ op ∈ store, hash op ≠ userOpHash
  | [], _ => by simp
  | op :: ops, h => by
      unfold spliceFirst at h
      split at h
      · cases h
      · rw [Option.map_eq_none'] at h
        simpa [*] using spliceFirst_eq_none h

open scoped List in
theorem spliceFirst_sublist {α : Type} {hash : α → HexData32} {userOpHash : HexData32} :
    ∀ {store rest : List α}, spliceFirst hash userOpHash store = some rest → rest <+ store
  | [], _, h => by cases h
  | op :: ops, rest, h => by
      unfold spliceFirst at h
      split at h
      · cases h
        exact List.sublist_cons_self op ops
      · obtain ⟨ops', hops, rfl⟩ := Option.map_eq_some'.1 h
        exact (spliceFirst_sublist hops).cons₂ op

theorem spliceFirst_length {α : Type} {hash : α → HexData32} {userOpHash : HexData32}
    {store rest : List α} (h : spliceFirst hash userOpHash store = some rest) :
    rest.length + 1 = store.length := by
  obtain ⟨_, _, hperm⟩ := spliceFirst_eq_some h
  simpa using hperm.length_eq.symm

variable (s : MemoryStore)

def addOutstanding (op : UserOperationInfo) : MemoryStore :=
  { s with outstandingUserOperations := s.outstandingUserOperations ++ [op]
           userOperationsInMempool := gaugeAdd s.userOperationsInMempool .outstanding 1 }

def addProcessing (op : UserOperationInfo) : MemoryStore :=
  { s with processingUserOperations := s.processingUserOperations ++ [op]
           userOperationsInMempool := gaugeAdd s.userOperationsInMempool .processing 1 }

def addSubmitted (op : SubmittedUserOperation) : MemoryStore :=
  { s with submittedUserOperations := s.submittedUserOperations ++ [op]
           userOperationsInMempool := gaugeAdd s.userOperationsInMempool .submitted 1 }

/-- `removeOutstanding` splices the operation out of the outstanding list and,
when it is there too, out of the available list.  Unlike its two siblings it
decrements the gauge only after the second splice, so an operation that was
never made available leaves the gauge where it was. -/
def removeOutstanding (userOpHash : HexData32) : MemoryStore :=
  match spliceFirst UserOperationInfo.userOperationHash userOpHash s.outstandingUserOperations with
  | none => s
  | some outstanding =>
      match spliceFirst UserOperationInfo.userOperationHash userOpHash
          s.avaiableOutstandingUserOperations with
      | none => { s with outstandingUserOperations := outstanding }
      | some available =>
          { s with outstandingUserOperations := outstanding
                   avaiableOutstandingUserOperations := available
                   userOperationsInMempool := gaugeAdd s.userOperationsInMempool .outstanding (-1) }

def removeProcessing (userOpHash : HexData32) : MemoryStore :=
  match spliceFirst UserOperationInfo.userOperationHash userOpHash s.processingUserOperations with
  | none => s
  | some processing =>
      { s with processingUserOperations := processing
               userOperationsInMempool := gaugeAdd s.userOperationsInMempool .processing (-1) }

def removeSubmitted (userOpHash : HexData32) : MemoryStore :=
  match spliceFirst (fun op : SubmittedUserOperation => op.userOperation.userOperationHash)
      userOpHash s.submittedUserOperations with
  | none => s
  | some submitted =>
      { s with submittedUserOperations := submitted
               userOperationsInMempool := gaugeAdd s.userOperationsInMempool .submitted (-1) }

/-- `clear(from)`: the type of `from` rules out the `unreachable` branch.  Clearing
the outstanding list leaves the available list as it is. -/
def clear : MempoolStatus → MemoryStore
  | .outstanding => { s with outstandingUserOperations := [] }
  | .processing => { s with processingUserOperations := [] }
  | .submitted => { s with submittedUserOperations := [] }

/-! ## Reconciliation -/

/-- `Set.prototype.add` on a set kept in insertion order. -/
def setAdd {α : Type} [DecidableEq α] (seen : List α) (x : α) : List α :=
  if x ∈ seen then seen else seen ++ [x]

/-- `[...new Set(xs)]`: the first occurrence of each element, in insertion order. -/
def setSpread {α : Type} [DecidableEq α] (xs : List α) : List α :=
  xs.foldl setAdd []

/-- One entry of the `multicall` result, which does not throw per call. -/
inductive MulticallResult
  | success (result : Nat)
  | failure (error : String)
  deriving DecidableEq, Repr

/-- The public client's `multicall` of `getNonce(sender, nonceKey)` for each pair:
a rejection of the whole batch, or the list of per-call results. -/
abbrev Multicall := List (Address × Nat) → Except String (List MulticallResult)

/-- Why an `updateAvailableUserOperations` run throws. -/
inductive ReconcileError
  /-- `BigInt(rawNonceKey)` threw on a pair string. -/
  | invalidPair (senderNonceKeyPair : List Char)
  /-- The `multicall` promise rejected. -/
  | multicallFailed (error : String)
  /-- `results[i]` is `undefined`, so reading its `status` is a `TypeError`. -/
  | missingResult
  deriving DecidableEq, Repr

/-- `allSendersAndNonceKeys`: the distinct pair strings of the snapshot, parsed. -/
def allSendersAndNonceKeys (outstandingOps : List UserOperationInfo) :
    Except ReconcileError (List (Address × Nat)) :=
  (setSpread (outstandingOps.map fun op => getSenderNonceKeyPair op.userOperation)).mapM
    fun pair => match parseSenderNonceKeyPair pair with
      | some senderAndNonceKey => .ok senderAndNonceKey
      | none => .error (.invalidPair pair)

/-- The test of the inner loop: same sender, same nonce key, and the nonce value
that `getNonce` returned. -/
def nonceMatches (sender : Address) (nonceKey nonceValue : Nat) (op : UserOperationInfo) : Bool :=
  op.userOperation.sender = sender && (getNonceKeyAndValue op.userOperation).1 = nonceKey &&
    (getNonceKeyAndValue op.userOperation).2 = nonceValue

/-- The `for` loop over the pairs, with `availableOutstandingOps` as accumulator:
`results[i]` belongs to the `i`-th pair, a success pushes every matching
snapshot operation, a failure is logged and skipped. -/
def collectAvailable (outstandingOps : List UserOperationInfo) :
    List UserOperationInfo → List (Address × Nat) → List MulticallResult →
      Except ReconcileError (List UserOperationInfo)
  | availableOutstandingOps, [], _ => .ok availableOutstandingOps
  | _, _ :: _, [] => .error .missingResult
  | availableOutstandingOps, (sender, nonceKey) :: pairs, result :: results =>
      match result with
      | .success nonceValue =>
          collectAvailable outstandingOps
            (availableOutstandingOps ++ outstandingOps.filter (nonceMatches sender nonceKey nonceValue))
            pairs results
      | .failure _ => collectAvailable outstandingOps availableOutstandingOps pairs results

/-- What a reconciliation started on the snapshot `outstandingOps` publishes. -/
def reconcile (outstandingOps : List UserOperationInfo) (multicall : Multicall) :
    Except ReconcileError (List UserOperationInfo) := do
  let allSendersAndNonceKeys ← allSendersAndNonceKeys outstandingOps
  let results ← (multicall allSendersAndNonceKeys).mapError ReconcileError.multicallFailed
  collectAvailable outstandingOps [] allSendersAndNonceKeys results

/-- The assignment `this.avaiableOutstandingUserOperations = availableOutstandingOps`
at the end of a run that started on the snapshot `outstandingOps`. -/
def publishAvailable (outstandingOps : List UserOperationInfo) (multicall : Multicall) :
    MemoryStore :=
  match reconcile outstandingOps multicall with
  | .ok available => { s with avaiableOutstandingUserOperations := available }
  | .error _ => s

/-- `updateAvailableUserOperations` run without interleaving: the snapshot is the
outstanding list of the same store. -/
def updateAvailableUserOperations (multicall : Multicall) : MemoryStore :=
  s.publishAvailable s.outstandingUserOperations multicall

/-! ## Runs -/

/-- A call of a `MemoryStore` method. -/
inductive MempoolOp
  | addOutstanding (op : UserOperationInfo)
  | addProcessing (op : UserOperationInfo)
  | addSubmitted (op : SubmittedUserOperation)
  | removeOutstanding (userOpHash : HexData32)
  | removeProcessing (userOpHash : HexData32)
  | removeSubmitted (userOpHash : HexData32)
  | clear (status : MempoolStatus)
  | updateAvailableUserOperations (multicall : Multicall)

def apply : MempoolOp → MemoryStore
  | .addOutstanding op => s.addOutstanding op
  | .addProcessing op => s.addProcessing op
  | .addSubmitted op => s.addSubmitted op
  | .removeOutstanding userOpHash => s.removeOutstanding userOpHash
  | .removeProcessing userOpHash => s.removeProcessing userOpHash
  | .removeSubmitted userOpHash => s.removeSubmitted userOpHash
  | .clear status => s.clear status
  | .updateAvailableUserOperations multicall => s.updateAvailableUserOperations multicall

/-- The store after calling the methods `ops` one at a time. -/
def run (ops : List MempoolOp) : MemoryStore :=
  ops.foldl apply s

@[simp] theorem run_nil : s.run [] = s := rfl

@[simp] theorem run_append (ops ops' : List MempoolOp) :
    s.run (ops ++ ops') = (s.run ops).run ops' := List.foldl_append _ _ _ _

@[simp] theorem run_cons (op : MempoolOp) (ops : List MempoolOp) :
    s.run (op :: ops) = (s.apply op).run ops := rfl

end MemoryStore

end AltoBundler
