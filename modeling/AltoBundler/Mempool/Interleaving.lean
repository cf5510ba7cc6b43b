import AltoBundler.Mempool.Invariants

/-!
# A reconciliation interleaved with other calls

`updateAvailableUserOperations` suspends once, at `await publicClient.multicall`.
Before the await it copies the outstanding list; after it, it assigns the list
computed from that copy.  `Reconciling` is the store together with the copy of
a run that is suspended, and its events are a method call run to completion,
the part of the run before the await (`snapshot`) and the part after it
(`publish`).  Without a call in between the two parts, they are the atomic
method of `MemoryStore.lean` (`step_snapshot_publish`).

What a publish assigns depends on the snapshot alone: calls that land during
the await change nothing in it.  An operation removed from the outstanding list
while the run waits is therefore published again when its nonce still matches
(`publish_after_removal`); it then stays available without being outstanding
until a later run whose snapshot was taken after the removal.  What the run
brings back is bounded by the snapshot, though: when the senders added before
it are hex addresses (no `_`, so their pair strings parse back), no hash is
published more often than the snapshot holds it
(`publish_hashCount_le_snapshot`).
-/

namespace AltoBundler.MemoryStore

/-- The store, and the snapshot of the `updateAvailableUserOperations` run that
is suspended at its `multicall`, if one is. -/
structure Reconciling where
  store : MemoryStore
  inFlight : Option (List UserOperationInfo)

/-- A step of the interleaving. -/
inductive ReconcilingEvent
  /-- Another method call, run to completion. -/
  | call (op : MempoolOp)
  /-- The run starts: `this.dumpOutstanding().slice()`, up to the await. -/
  | snapshot
  /-- The run resumes with the multicall's answer and assigns the result. -/
  | publish (multicall : Multicall)

namespace Reconciling

def step (r : Reconciling) : ReconcilingEvent → Reconciling
  | .call op => { r with store := r.store.apply op }
  | .snapshot =>
      match r.inFlight with
      | none => { r with inFlight := some r.store.outstandingUserOperations }
      | some _ => r
  | .publish multicall =>
      match r.inFlight with
      | some outstandingOps => ⟨r.store.publishAvailable outstandingOps multicall, none⟩
      | none => r

def run (r : Reconciling) (events : List ReconcilingEvent) : Reconciling :=
  events.foldl step r

theorem run_append (r : Reconciling) (events events' : List ReconcilingEvent) :
    r.run (events ++ events') = (r.run events).run events' :=
  List.foldl_append _ _ _ _

/-- Snapshot and publish with nothing in between are the atomic method. -/
theorem step_snapshot_publish (store : MemoryStore) (multicall : Multicall) :
    ((⟨store, none⟩ : Reconciling).step .snapshot).step (.publish multicall) =
      ⟨store.updateAvailableUserOperations multicall, none⟩ :=
  rfl

/-- Calls during the await move the store and keep the snapshot. -/
theorem run_calls (r : Reconciling) :
    ∀ ops : List MempoolOp, r.run (ops.map .call) = ⟨r.store.run ops, r.inFlight⟩
  | [] => rfl
  | op :: ops => run_calls { r with store := r.store.apply op } ops

/-- The run: calls `before`, the snapshot, calls `during` the await, the publish. -/
def interleaved (before during : List MempoolOp) (multicall : Multicall) : Reconciling :=
  (⟨empty, none⟩ : Reconciling).run
    (before.map .call ++ [.snapshot] ++ during.map .call ++ [.publish multicall])

theorem interleaved_store (before during : List MempoolOp) (multicall : Multicall) :
    (interleaved before during multicall).store =
      ((empty.run before).run during).publishAvailable (empty.run before).outstandingUserOperations
        multicall := by
  simp only [interleaved, run_append, run_calls]
  rfl

end Reconciling

/-- For every run whose calls before the snapshot add only senders without `_`
(every hex address) and never clear the outstanding list: when the resumed run
completes, the available list it assigns is computed from its snapshot alone,
and every hash occurs in it at most as often as in the outstanding list at the
snapshot, whatever was added or removed during the await. -/
theorem publish_hashCount_le_snapshot (before during : List MempoolOp) (multicall : Multicall)
    (hbefore : ∀ op ∈ before, op.Admissible) {available : List UserOperationInfo}
    (hreconcile : reconcile (empty.run before).outstandingUserOperations multicall = .ok available) :
    (Reconciling.interleaved before during multicall).store.avaiableOutstandingUserOperations =
        available ∧
      ∀ userOpHash, hashCount userOpHash available ≤
        hashCount userOpHash (empty.run before).outstandingUserOperations := by
  refine ⟨by simp [Reconciling.interleaved_store, publishAvailable, hreconcile], fun h => ?_⟩
  obtain ⟨results, -, hperm⟩ :=
    reconcile_perm (consistent_run consistent_empty hbefore).hexSenders hreconcile
  exact (hperm.subperm.trans (promoted_subperm _ _ results)).countP_le _

/-- The run of `publish_after_removal`: the removed operation comes back once. -/
theorem publish_hashCount_le_snapshot_promoted :
    let op : UserOperationInfo := ⟨⟨['0', 'x', 'a'], 5⟩, ['0', 'x', '1']⟩
    let multicall : Multicall := fun pairs => .ok (pairs.map fun _ => .success 5)
    (∀ o ∈ [MempoolOp.addOutstanding op], o.Admissible) ∧
      reconcile (empty.run [.addOutstanding op]).outstandingUserOperations multicall = .ok [op] ∧
      ((Reconciling.interleaved [.addOutstanding op] [.removeOutstanding op.userOperationHash]
          multicall).store.avaiableOutstandingUserOperations = [op] ∧
        ∀ userOpHash, hashCount userOpHash [op] ≤
          hashCount userOpHash (empty.run [.addOutstanding op]).outstandingUserOperations) :=
  ⟨by simp [MempoolOp.Admissible], rfl,
    publish_hashCount_le_snapshot _ _ _ (by simp [MempoolOp.Admissible]) rfl⟩

/-- An operation removed while the run waits is published again: its only entry
leaves the outstanding list after the snapshot, and after the publish it is
available. -/
theorem publish_after_removal :
    let op : UserOperationInfo := ⟨⟨['0', 'x', 'a'], 5⟩, ['0', 'x', '1']⟩
    let multicall : Multicall := fun pairs => .ok (pairs.map fun _ => .success 5)
    let waiting := (⟨empty, none⟩ : Reconciling).run
      [.call (.addOutstanding op), .snapshot, .call (.removeOutstanding op.userOperationHash)]
    waiting.store.outstandingUserOperations = [] ∧
      (waiting.step (.publish multicall)).store.avaiableOutstandingUserOperations = [op] := by
  decide

end AltoBundler.MemoryStore
