import AltoBundler.Mempool.MemoryStore
import Mathlib.Data.List.Perm.Basic
import Mathlib.Data.List.Nodup

/-!
# What a reconciliation publishes

`reconcile_perm` describes the list that `reconcile` computes from a snapshot
`S` whose senders have no underscore: up to order, it is the sublist of `S` of
the operations whose `(sender, nonceKey)` pair got a successful `getNonce`
result equal to their nonce value.

## Strategy

* `setSpread` keeps one copy of each element and commutes with a map that is
  injective on its input (`setSpread_map`).  With the round trip of
  `SenderNonceKey.lean` this makes `allSendersAndNonceKeys S` the spread of the
  pairs of `S` itself (`allSendersAndNonceKeys_eq`): the string detour neither
  merges two pairs nor fails.
* The loop pushes, for each pair, the operations of that pair, and every
  operation has one pair.  So over a list of distinct pairs the pushed blocks
  are disjoint filters of `S` (`filter_append_perm_of_disjoint`), and
  `collectAvailable_perm` follows by induction on the pairs.
-/

namespace AltoBundler.MemoryStore

open scoped List

/-! ## The `Set` spread -/

section SetSpread

variable {α β : Type} [DecidableEq α] [DecidableEq β]

theorem mem_setAdd {x y : α} {seen : List α} : x ∈ setAdd seen y ↔ x ∈ seen ∨ x = y := by
  unfold setAdd
  split
  · exact ⟨Or.inl, fun h => h.elim id fun hxy => hxy ▸ ‹y ∈ seen›⟩
  · simp

theorem mem_foldl_setAdd {x : α} :
    ∀ (xs : List α) (seen : List α), x ∈ xs.foldl setAdd seen ↔ x ∈ seen ∨ x ∈ xs
  | [], seen => by simp
  | y :: xs, seen => by
      rw [List.foldl_cons, mem_foldl_setAdd xs, mem_setAdd, List.mem_cons, or_assoc]

theorem nodup_foldl_setAdd :
    ∀ (xs : List α) {seen : List α}, seen.Nodup → (xs.foldl setAdd seen).Nodup
  | [], _, h => h
  | x :: xs, seen, h => nodup_foldl_setAdd xs <| by
      unfold setAdd
      split
      · exact h
      · exact h.append (List.nodup_singleton x) (by simpa)

theorem mem_setSpread {x : α} {xs : List α} : x ∈ setSpread xs ↔ x ∈ xs := by
  simp [setSpread, mem_foldl_setAdd]

theorem nodup_setSpread (xs : List α) : (setSpread xs).Nodup :=
  nodup_foldl_setAdd xs List.nodup_nil

theorem foldl_setAdd_map (f : α → β) :
    ∀ (xs seen : List α), (∀ x ∈ seen ++ xs, ∀ y ∈ seen ++ xs, f x = f y → x = y) →
      (xs.map f).foldl setAdd (seen.map f) = (xs.foldl setAdd seen).map f
  | [], _, _ => rfl
  | x :: xs, seen, hf => by
      have hmem : f x ∈ seen.map f ↔ x ∈ seen := by
        refine ⟨fun h => ?_, List.mem_map_of_mem f⟩
        obtain ⟨y, hy, hxy⟩ := List.mem_map.1 h
        exact hf y (List.mem_append_left _ hy) x (List.mem_append_right _ (List.mem_cons_self _ _)) hxy ▸ hy
      have hstep : setAdd (seen.map f) (f x) = (setAdd seen x).map f := by
        unfold setAdd
        by_cases hx : x ∈ seen
        · rw [if_pos hx, if_pos (hmem.2 hx)]
        · rw [if_neg hx, if_neg (mt hmem.1 hx), List.map_append, List.map_singleton]
      have hsub : ∀ a ∈ setAdd seen x ++ xs, a ∈ seen ++ x :: xs := by
        intro a ha
        simp only [List.mem_append, mem_setAdd, List.mem_cons] at ha ⊢
        exact or_assoc.1 ha
      rw [List.map_cons, List.foldl_cons, List.foldl_cons, hstep]
      exact foldl_setAdd_map f xs _ fun a ha b hb => hf a (hsub a ha) b (hsub b hb)

/-- A map that is injective on `xs` commutes with the spread. -/
theorem setSpread_map (f : α → β) {xs : List α}
    (hf : ∀ x ∈ xs, ∀ y ∈ xs, f x = f y → x = y) :
    setSpread (xs.map f) = (setSpread xs).map f :=
  foldl_setAdd_map f xs [] (by rwa [List.nil_append])

end SetSpread

/-! ## The pairs of a snapshot -/

/-- The pairs of the snapshot's operations, in first-occurrence order. -/
def snapshotPairs (outstandingOps : List UserOperationInfo) : List (Address × Nat) :=
  setSpread (outstandingOps.map fun op => senderNonceKey op.userOperation)

/-- No sender of the snapshot contains the separator. -/
def HexSenders (outstandingOps : List UserOperationInfo) : Prop :=
  ∀ op ∈ outstandingOps, '_' ∉ op.userOperation.sender

theorem mapM_parse_print :
    ∀ pairs : List (Address × Nat), (∀ p ∈ pairs, '_' ∉ p.1) →
      (pairs.map fun p => p.1 ++ '_' :: Nat.toDigits 10 p.2).mapM
        (fun pair => match parseSenderNonceKeyPair pair with
          | some senderAndNonceKey => (.ok senderAndNonceKey : Except ReconcileError _)
          | none => .error (.invalidPair pair)) = .ok pairs
  | [], _ => rfl
  | (sender, nonceKey) :: pairs, h => by
      simp only [List.map_cons, List.mapM_cons,
        parseSenderNonceKeyPair_print nonceKey (h _ (List.mem_cons_self _ _)),
        mapM_parse_print pairs fun p hp => h p (List.mem_cons_of_mem _ hp)]
      rfl

/-- For senders without an underscore the string round trip is invisible: the
parsed pairs are the distinct pairs of the snapshot. -/
theorem allSendersAndNonceKeys_eq {outstandingOps : List UserOperationInfo}
    (hS : HexSenders outstandingOps) :
    allSendersAndNonceKeys outstandingOps = .ok (snapshotPairs outstandingOps) := by
  have hsender : ∀ p ∈ outstandingOps.map fun op => senderNonceKey op.userOperation, '_' ∉ p.1 := by
    simp only [List.mem_map]
    rintro _ ⟨op, hop, rfl⟩
    exact hS op hop
  have hprint : (outstandingOps.map fun op => getSenderNonceKeyPair op.userOperation) =
      (outstandingOps.map fun op => senderNonceKey op.userOperation).map
        fun p => p.1 ++ '_' :: Nat.toDigits 10 p.2 := by
    simp only [List.map_map]; rfl
  rw [allSendersAndNonceKeys, hprint, setSpread_map]
  · exact mapM_parse_print _ fun p hp => hsender p (mem_setSpread.1 hp)
  · intro p hp q hq hpq
    have := parseSenderNonceKeyPair_print p.2 (hsender p hp)
    rwa [hpq, parseSenderNonceKeyPair_print q.2 (hsender q hq), Option.some_inj, eq_comm] at this

/-- Printing a pair and parsing it back is the identity for senders without an
underscore and every nonce key; so two such operations print the same string
exactly when they have the same pair, and the `Set` spread of the snapshot's
strings parses to each pair of the snapshot once. -/
theorem senderNonceKeyPair_roundTrip :
    (∀ (sender : Address) (nonceKey : Nat), '_' ∉ sender →
        parseSenderNonceKeyPair (sender ++ '_' :: Nat.toDigits 10 nonceKey) = some (sender, nonceKey)) ∧
      (∀ op op' : UserOperation, '_' ∉ op.sender → '_' ∉ op'.sender →
        (getSenderNonceKeyPair op = getSenderNonceKeyPair op' ↔ senderNonceKey op = senderNonceKey op')) ∧
      ∀ outstandingOps : List UserOperationInfo, HexSenders outstandingOps →
        ∃ pairs, allSendersAndNonceKeys outstandingOps = .ok pairs ∧ pairs.Nodup ∧
          ∀ pair, pair ∈ pairs ↔ ∃ op ∈ outstandingOps, senderNonceKey op.userOperation = pair := by
  refine ⟨fun _ nonceKey h => parseSenderNonceKeyPair_print nonceKey h,
    fun op op' h h' => ⟨fun hpair => ?_, fun hpair => ?_⟩,
    fun outstandingOps hS => ⟨_, allSendersAndNonceKeys_eq hS, nodup_setSpread _,
      fun pair => by simp [snapshotPairs, mem_setSpread]⟩⟩
  · -- equal strings parse to equal pairs
    have := parse_getSenderNonceKeyPair h
    rwa [hpair, parse_getSenderNonceKeyPair h', Option.some_inj, eq_comm] at this
  · -- equal pairs print equal strings
    simp only [senderNonceKey, Prod.mk.injEq] at hpair
    rw [getSenderNonceKeyPair, getSenderNonceKeyPair, hpair.1, hpair.2]

/-! ## The matching loop -/

/-- The `getNonce` value that the multicall returned for `pair`, read at the
pair's first index; `none` when that call failed or has no result. -/
def returnedNonce : List (Address × Nat) → List MulticallResult → Address × Nat → Option Nat
  | q :: pairs, result :: results, pair =>
      if q = pair then
        match result with
        | .success nonceValue => some nonceValue
        | .failure _ => none
      else returnedNonce pairs results pair
  | _, _, _ => none

/-- The operations that a reconciliation with these pairs and results promotes. -/
def promoted (outstandingOps : List UserOperationInfo) (pairs : List (Address × Nat))
    (results : List MulticallResult) : List UserOperationInfo :=
  outstandingOps.filter fun op =>
    returnedNonce pairs results (senderNonceKey op.userOperation) =
      some (getNonceKeyAndValue op.userOperation).2

theorem returnedNonce_cons_of_ne {q pair : Address × Nat} (h : q ≠ pair) (pairs : List (Address × Nat))
    (result : MulticallResult) (results : List MulticallResult) :
    returnedNonce (q :: pairs) (result :: results) pair = returnedNonce pairs results pair := by
  simp only [returnedNonce, if_neg h]

theorem returnedNonce_of_not_mem {pair : Address × Nat} :
    ∀ {pairs : List (Address × Nat)} (results : List MulticallResult), pair ∉ pairs →
      returnedNonce pairs results pair = none
  | [], _, _ => by simp [returnedNonce]
  | _ :: _, [], _ => by simp [returnedNonce]
  | q :: pairs, _ :: results, h => by
      simp only [List.mem_cons, not_or] at h
      rw [returnedNonce_cons_of_ne (Ne.symm h.1)]
      exact returnedNonce_of_not_mem results h.2

theorem nonceMatches_iff {sender : Address} {nonceKey nonceValue : Nat} {op : UserOperationInfo} :
    nonceMatches sender nonceKey nonceValue op = true ↔
      senderNonceKey op.userOperation = (sender, nonceKey) ∧
        (getNonceKeyAndValue op.userOperation).2 = nonceValue := by
  simp [nonceMatches, senderNonceKey, and_assoc]

theorem filter_append_perm_of_disjoint {α : Type} {p q : α → Bool} :
    ∀ {l : List α}, (∀ x ∈ l, ¬(p x = true ∧ q x = true)) →
      l.filter p ++ l.filter q ~ l.filter fun x => p x || q x
  | [], _ => by simp
  | x :: xs, h => by
      have ih := filter_append_perm_of_disjoint fun y hy => h y (List.mem_cons_of_mem _ hy)
      have hx := h x (List.mem_cons_self _ _)
      simp only [List.filter_cons]
      cases hp : p x <;> cases hq : q x <;>
        simp only [hp, hq, Bool.or_false, Bool.or_true, Bool.false_eq_true, if_true, if_false] at hx ⊢
      · exact ih
      · exact List.perm_middle.trans (ih.cons x)
      · exact ih.cons x
      · exact absurd ⟨trivial, trivial⟩ hx

theorem collectAvailable_perm (outstandingOps : List UserOperationInfo) :
    ∀ (pairs : List (Address × Nat)) (results : List MulticallResult)
      (acc out : List UserOperationInfo), pairs.Nodup →
      collectAvailable outstandingOps acc pairs results = .ok out →
      out ~ acc ++ promoted outstandingOps pairs results
  | [], _, acc, out, _, h => by
      cases h
      simp [promoted, returnedNonce]
  | _ :: _, [], _, _, _, h => by cases h
  | (sender, nonceKey) :: pairs, result :: results, acc, out, hnodup, h => by
      rw [List.nodup_cons] at hnodup
      have hnone := returnedNonce_of_not_mem results hnodup.1
      cases result with
      | success nonceValue =>
          refine (collectAvailable_perm outstandingOps pairs results _ out hnodup.2 h).trans ?_
          rw [List.append_assoc]
          refine List.Perm.append_left acc ((filter_append_perm_of_disjoint ?_).trans
            (List.Perm.of_eq (List.filter_congr fun op _ => ?_)))
          · intro op _ hop
            rw [nonceMatches_iff] at hop
            simp [hop.1.1, hnone] at hop
          · by_cases hpair : senderNonceKey op.userOperation = (sender, nonceKey)
            · have hm : nonceMatches sender nonceKey nonceValue op =
                  decide ((getNonceKeyAndValue op.userOperation).2 = nonceValue) := by
                rw [Bool.eq_iff_iff, nonceMatches_iff, decide_eq_true_iff]
                simp [hpair]
              simp [hm, hpair, hnone, returnedNonce, eq_comm]
            · have hm : nonceMatches sender nonceKey nonceValue op = false :=
                Bool.eq_false_iff.2 fun hm => hpair (nonceMatches_iff.1 hm).1
              rw [hm, Bool.false_or, returnedNonce_cons_of_ne (Ne.symm hpair)]
      | failure error =>
          refine (collectAvailable_perm outstandingOps pairs results _ out hnodup.2 h).trans ?_
          refine List.Perm.of_eq (congrArg (acc ++ ·) (List.filter_congr fun op _ => ?_))
          by_cases hpair : senderNonceKey op.userOperation = (sender, nonceKey)
          · simp [hpair, hnone, returnedNonce]
          · rw [returnedNonce_cons_of_ne (Ne.symm hpair)]

/-- Up to order, a reconciliation on a snapshot with hex senders publishes
exactly the operations whose pair's `getNonce` result equals their nonce value. -/
theorem reconcile_perm {outstandingOps : List UserOperationInfo} (hS : HexSenders outstandingOps)
    {multicall : Multicall} {available : List UserOperationInfo}
    (h : reconcile outstandingOps multicall = .ok available) :
    ∃ results, multicall (snapshotPairs outstandingOps) = .ok results ∧
      available ~ promoted outstandingOps (snapshotPairs outstandingOps) results := by
  rw [reconcile, allSendersAndNonceKeys_eq hS] at h
  cases hcall : multicall (snapshotPairs outstandingOps) with
  | error e => simp [bind, Except.bind, hcall, Except.mapError] at h
  | ok results =>
      simp only [bind, Except.bind, hcall, Except.mapError] at h
      exact ⟨results, rfl, by
        simpa using collectAvailable_perm outstandingOps _ results [] available
          (nodup_setSpread _) h⟩

theorem promoted_subperm (outstandingOps : List UserOperationInfo) (pairs : List (Address × Nat))
    (results : List MulticallResult) : promoted outstandingOps pairs results <+~ outstandingOps :=
  (List.filter_sublist _).subperm

end AltoBundler.MemoryStore
