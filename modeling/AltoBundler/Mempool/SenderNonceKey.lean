import Mathlib.Data.List.Basic
import Mathlib.Order.Basic
import Mathlib.Data.Nat.Digits

/-!
# User operations and the `sender_nonceKey` strings of the mempool

The mempool of `MemoryStore` (`mempool/store.ts`) reads three things of a user
operation: its `sender`, its 256-bit `nonce`, split into a 192-bit key and a
64-bit value, and the `userOperationHash` of the `UserOperationInfo` that wraps
it.  Everything else a user operation carries (calldata, gas fields, signature,
the timestamps of `UserOperationInfo`) is never read there and is left out.

`updateAvailableUserOperations` groups the outstanding operations by
`(sender, nonceKey)` through strings: `getSenderNonceKeyPair` prints
`${sender}_${nonceKey}`, a `Set` removes duplicates, and
`parseSenderNonceKeyPair` splits the string on `"_"` and reads the key back
with `BigInt`.  This file models the three string functions on `List Char`
and proves the round trip `parse_getSenderNonceKeyPair` for senders without
an underscore, which is what every hex address is.
-/

namespace AltoBundler

/-- viem's `Address`: a hex string. -/
abbrev Address := List Char

/-- A 32-byte hex string, the type of `userOperationHash`. -/
abbrev HexData32 := List Char

/-- The fields of an ERC-4337 `UserOperation` that the mempool reads. -/
structure UserOperation where
  sender : Address
  nonce : Nat
  deriving DecidableEq, Repr

/-- `UserOperationInfo`: a user operation with its hash. -/
structure UserOperationInfo where
  userOperation : UserOperation
  userOperationHash : HexData32
  deriving DecidableEq, Repr

/-- `SubmittedUserOperation`: the mempool only reads the wrapped info. -/
structure SubmittedUserOperation where
  userOperation : UserOperationInfo
  deriving DecidableEq, Repr

/-- Modelled from the spec: `getNonceKeyAndValue` of `@alto/utils` is not in the
repository.  "nonce key is the upper 192 bits of the 256-bit nonce; nonce value
is the lower 64 bits". -/
def getNonceKeyAndValue (op : UserOperation) : Nat × Nat :=
  (op.nonce / 2 ^ 64, op.nonce % 2 ^ 64)

/-! ## Splitting on a separator -/

/-- JavaScript's `String.prototype.split` with a one-character separator: the
pieces between separators, `[""]` for the empty string. -/
def splitOn (sep : Char) : List Char → List (List Char)
  | [] => [[]]
  | c :: cs => if c = sep then [] :: splitOn sep cs else (splitOn sep cs).modifyHead (c :: ·)

theorem splitOn_of_not_mem (sep : Char) :
    ∀ {s : List Char}, sep ∉ s → splitOn sep s = [s]
  | [], _ => rfl
  | c :: cs, h => by
      simp only [List.mem_cons, not_or] at h
      simp [splitOn, Ne.symm h.1, splitOn_of_not_mem sep h.2]

theorem splitOn_append_sep (sep : Char) (t : List Char) :
    ∀ {s : List Char}, sep ∉ s → splitOn sep (s ++ sep :: t) = s :: splitOn sep t
  | [], _ => by simp [splitOn]
  | c :: cs, h => by
      simp only [List.mem_cons, not_or] at h
      simp [splitOn, Ne.symm h.1, splitOn_append_sep sep t h.2]

/-! ## Decimal digits -/

/-- The digits loop of `BigInt(s)`: read decimal digits into `acc`; a
character that is not a digit makes `BigInt` throw. -/
def parseDigits : Nat → List Char → Option Nat
  | acc, [] => some acc
  | acc, c :: cs => if c.isDigit then parseDigits (10 * acc + (c.toNat - '0'.toNat)) cs else none

/-- `BigInt(s)` on the decimal strings that `getSenderNonceKeyPair` prints; the
empty string is `0n`.  (The signed, hex and padded forms `BigInt` also accepts
never come out of `getSenderNonceKeyPair` for an address without `_`.) -/
def parseBigInt (s : List Char) : Option Nat :=
  parseDigits 0 s

theorem digitChar_decimal : ∀ d < 10,
    (Nat.digitChar d).isDigit = true ∧ (Nat.digitChar d).toNat - '0'.toNat = d := by
  decide

theorem parseDigits_toDigitsCore :
    ∀ (fuel n : Nat) (ds : List Char), n < fuel →
      parseDigits 0 (Nat.toDigitsCore 10 fuel n ds) = parseDigits n ds
  | 0, _, _, h => absurd h (Nat.not_lt_zero _)
  | fuel + 1, n, ds, h => by
      obtain ⟨hdigit, hvalue⟩ := digitChar_decimal (n % 10) (Nat.mod_lt _ (by decide))
      have hstep : parseDigits (n / 10) (Nat.digitChar (n % 10) :: ds) = parseDigits n ds := by
        simp only [parseDigits, hdigit, if_true, hvalue]
        congr 1
        omega
      simp only [Nat.toDigitsCore]
      split
      · rename_i hzero
        rw [← hstep, hzero]
      · rw [parseDigits_toDigitsCore fuel (n / 10) _ (by omega), hstep]

theorem parseBigInt_toDigits (k : Nat) : parseBigInt (Nat.toDigits 10 k) = some k := by
  rw [parseBigInt, Nat.toDigits, parseDigits_toDigitsCore _ _ _ (Nat.lt_succ_self k)]
  rfl

theorem isDigit_of_mem_toDigitsCore :
    ∀ (fuel n : Nat) (ds : List Char) (c : Char), c ∈ Nat.toDigitsCore 10 fuel n ds →
      c ∈ ds ∨ c.isDigit = true
  | 0, _, _, _, h => .inl h
  | fuel + 1, n, ds, c, h => by
      have hdigit := (digitChar_decimal (n % 10) (Nat.mod_lt _ (by decide))).1
      simp only [Nat.toDigitsCore] at h
      split at h
      · rcases List.mem_cons.1 h with rfl | h
        exacts [.inr hdigit, .inl h]
      · rcases isDigit_of_mem_toDigitsCore fuel _ _ c h with h | h
        · rcases List.mem_cons.1 h with rfl | h
          exacts [.inr hdigit, .inl h]
        · exact .inr h

theorem underscore_not_mem_toDigits (k : Nat) : '_' ∉ Nat.toDigits 10 k := fun h => by
  rcases isDigit_of_mem_toDigitsCore _ _ _ _ h with h | h
  · simp at h
  · revert h; decide

/-! ## The pair strings -/

/-- `getSenderNonceKeyPair`: the template literal `${op.sender}_${nonceKey}`. -/
def getSenderNonceKeyPair (op : UserOperation) : List Char :=
  op.sender ++ '_' :: Nat.toDigits 10 (getNonceKeyAndValue op).1

/-- `parseSenderNonceKeyPair`: `const [rawSender, rawNonceKey] = s.split("_")`,
then `BigInt(rawNonceKey)`, which throws on a missing piece or a non-numeral. -/
def parseSenderNonceKeyPair (senderNonceKeyPair : List Char) : Option (Address × Nat) :=
  match splitOn '_' senderNonceKeyPair with
  | rawSender :: rawNonceKey :: _ => (parseBigInt rawNonceKey).map fun nonceKey => (rawSender, nonceKey)
  | _ => none

/-- The `(sender, nonceKey)` pair of an operation, as the matching loop compares it. -/
def senderNonceKey (op : UserOperation) : Address × Nat :=
  (op.sender, (getNonceKeyAndValue op).1)

/-- Parsing undoes printing for every sender without an underscore. -/
theorem parseSenderNonceKeyPair_print {sender : Address} (nonceKey : Nat) (h : '_' ∉ sender) :
    parseSenderNonceKeyPair (sender ++ '_' :: Nat.toDigits 10 nonceKey) = some (sender, nonceKey) := by
  simp only [parseSenderNonceKeyPair, splitOn_append_sep _ _ h,
    splitOn_of_not_mem _ (underscore_not_mem_toDigits _), parseBigInt_toDigits]
  rfl

theorem parse_getSenderNonceKeyPair {op : UserOperation} (h : '_' ∉ op.sender) :
    parseSenderNonceKeyPair (getSenderNonceKeyPair op) = some (senderNonceKey op) :=
  parseSenderNonceKeyPair_print _ h

end AltoBundler
