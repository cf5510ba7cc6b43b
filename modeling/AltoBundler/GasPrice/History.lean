import Mathlib.Data.List.Chain
import Mathlib.Order.MinMax
import Mathlib.Algebra.Group.Nat.Basic

/-!
# The fee history queues

`gasPriceManager.ts` keeps five histories: `queueBaseFeePerGas`,
`queueMaxFeePerGas` and `queueMaxPriorityFeePerGas` with a slice of 1000 ms, and
the Arbitrum manager's `queueL1BaseFee` and `queueL2BaseFee` with a slice of
`queueValidity = 15_000` ms.  All five are saved by the same rule, modelled once
here as `saveToQueue`: a value arriving a slice or more after the last entry is
appended (evicting the oldest entry when the queue holds `maxQueueSize`
entries), a value arriving within the slice replaces the last entry when it is
strictly lower, and is dropped otherwise.  The field that each queue names
`baseFeePerGas`, `maxFeePerGas` or `maxPriorityFeePerGas` is `value` here.

Timestamps are `Date.now()` milliseconds, so natural numbers, and the test
`timestamp - last.timestamp >= slice` is `last.timestamp + slice ≤ timestamp`.

## The window

Cut the insertions into blocks, a new block starting at each append.  Then the
queue is the summary of the last `queueCapacity maxQueueSize` blocks, each summarised by
its least value stamped with the earliest insertion attaining it
(`blockEntry`), and consecutive entries are a slice apart (`window_saveAll`).  One
step appends a block (`summarises_pushEvicting`) or extends the last one
(`summarises_extend`); `blockEntry_snoc_lt` and `blockEntry_snoc_of_le` say
that the replace-or-drop rule computes the summary of the extended block.
-/

namespace AltoBundler.GasPrice

/-- An entry `{ timestamp, value }` of a history queue; also an insertion, the
pair of arguments of a save. -/
structure QueueEntry where
  timestamp : Nat
  value : Nat
  deriving DecidableEq, Repr

/-- `if (queue.length >= maxQueueSize) queue.shift()`, then `queue.push(entry)`. -/
def pushEvicting (maxQueueSize : Nat) (queue : List QueueEntry) (entry : QueueEntry) :
    List QueueEntry :=
  (if maxQueueSize ≤ queue.length then queue.tail else queue) ++ [entry]

/-- The insertion rule of every history queue, with the slice as a parameter. -/
def saveToQueue (slice maxQueueSize : Nat) (queue : List QueueEntry) (value timestamp : Nat) :
    List QueueEntry :=
  match queue.getLast? with
  | none => pushEvicting maxQueueSize queue ⟨timestamp, value⟩
  | some last =>
      if last.timestamp + slice ≤ timestamp then pushEvicting maxQueueSize queue ⟨timestamp, value⟩
      else if value < last.value then queue.dropLast ++ [⟨timestamp, value⟩]
      else queue

/-- The queue after the insertions `insertions`, in order, from `queue`. -/
def saveAll (slice maxQueueSize : Nat) (queue insertions : List QueueEntry) : List QueueEntry :=
  insertions.foldl (fun queue entry => saveToQueue slice maxQueueSize queue entry.value entry.timestamp)
    queue

@[simp] theorem saveAll_nil (slice maxQueueSize : Nat) (queue : List QueueEntry) :
    saveAll slice maxQueueSize queue [] = queue := rfl

@[simp] theorem saveAll_append_singleton (slice maxQueueSize : Nat) (queue insertions : List QueueEntry)
    (entry : QueueEntry) :
    saveAll slice maxQueueSize queue (insertions ++ [entry]) =
      saveToQueue slice maxQueueSize (saveAll slice maxQueueSize queue insertions) entry.value
        entry.timestamp :=
  List.foldl_append _ _ _ _

variable {slice maxQueueSize : Nat}

/-- What one save can do: append, or, within the slice of the last entry,
replace it by a strictly lower value or drop the value. -/
theorem saveToQueue_cases (slice maxQueueSize : Nat) (queue : List QueueEntry) (value timestamp : Nat) :
    ((∀ last ∈ queue.getLast?, last.timestamp + slice ≤ timestamp) ∧
        saveToQueue slice maxQueueSize queue value timestamp =
          pushEvicting maxQueueSize queue ⟨timestamp, value⟩) ∨
      ∃ front last, queue = front ++ [last] ∧ timestamp < last.timestamp + slice ∧
        ((value < last.value ∧
            saveToQueue slice maxQueueSize queue value timestamp = front ++ [⟨timestamp, value⟩]) ∨
          (last.value ≤ value ∧ saveToQueue slice maxQueueSize queue value timestamp = queue)) := by
  rcases List.eq_nil_or_concat queue with rfl | ⟨front, last, rfl⟩
  · exact .inl ⟨by simp, rfl⟩
  · simp only [List.concat_eq_append, saveToQueue, List.getLast?_concat, Option.mem_def,
      Option.some.injEq, forall_eq', List.dropLast_concat]
    by_cases hslice : last.timestamp + slice ≤ timestamp
    · exact .inl ⟨hslice, if_pos hslice⟩
    · refine .inr ⟨front, last, rfl, by omega, ?_⟩
      by_cases hlt : value < last.value
      · exact .inl ⟨hlt, by simp [hslice, hlt]⟩
      · exact .inr ⟨by omega, by simp [hslice, hlt]⟩

/-- An entry after a save is an entry from before, or the saved value. -/
theorem mem_saveToQueue {queue : List QueueEntry} {value timestamp : Nat} {entry : QueueEntry}
    (h : entry ∈ saveToQueue slice maxQueueSize queue value timestamp) :
    entry ∈ queue ∨ entry = ⟨timestamp, value⟩ := by
  rcases saveToQueue_cases slice maxQueueSize queue value timestamp with
    ⟨-, heq⟩ | ⟨front, last, rfl, -, ⟨-, heq⟩ | ⟨-, heq⟩⟩ <;> rw [heq] at h
  · unfold pushEvicting at h
    rcases List.mem_append.1 h with h | h
    · split at h
      exacts [.inl (List.mem_of_mem_tail h), .inl h]
    · exact .inr (List.mem_singleton.1 h)
  · rcases List.mem_append.1 h with h | h
    exacts [.inl (List.mem_append_left _ h), .inr (List.mem_singleton.1 h)]
  · exact .inl h

/-- Whether a save at `timestamp` takes the append branch. -/
def appendsAt (slice : Nat) (queue : List QueueEntry) (timestamp : Nat) : Bool :=
  match queue.getLast? with
  | none => true
  | some last => decide (last.timestamp + slice ≤ timestamp)

theorem appendsAt_iff {queue : List QueueEntry} {timestamp : Nat} :
    appendsAt slice queue timestamp = true ↔ ∀ last ∈ queue.getLast?, last.timestamp + slice ≤ timestamp := by
  unfold appendsAt
  split <;> simp_all

/-- After a save of `value`, the last entry is at most `value`. -/
theorem getLast_saveToQueue_le (slice maxQueueSize : Nat) (queue : List QueueEntry) (value timestamp : Nat) :
    ∀ last ∈ (saveToQueue slice maxQueueSize queue value timestamp).getLast?, last.value ≤ value := by
  rcases saveToQueue_cases slice maxQueueSize queue value timestamp with
    ⟨-, h⟩ | ⟨front, last, rfl, -, ⟨-, h⟩ | ⟨hle, h⟩⟩
  · simp [h, pushEvicting]
  · simp [h]
  · simpa [h] using hle

theorem saveToQueue_ne_nil (queue : List QueueEntry) (value timestamp : Nat) :
    saveToQueue slice maxQueueSize queue value timestamp ≠ [] := by
  rcases saveToQueue_cases slice maxQueueSize queue value timestamp with
    ⟨-, h⟩ | ⟨front, last, rfl, -, ⟨-, h⟩ | ⟨-, h⟩⟩ <;> simp [h, pushEvicting]

/-! ## Blocks and their summaries -/

/-- The least value of the block `first :: rest`. -/
def blockMin (first : QueueEntry) (rest : List QueueEntry) : Nat :=
  rest.foldl (fun least entry => min least entry.value) first.value

/-- The entry a block leaves in the queue: its least value, stamped with the
earliest insertion of the block that attains it. -/
def blockEntry (first : QueueEntry) (rest : List QueueEntry) : QueueEntry :=
  ⟨(((first :: rest).find? fun entry => entry.value = blockMin first rest).getD first).timestamp,
    blockMin first rest⟩

theorem blockMin_snoc (first entry : QueueEntry) (rest : List QueueEntry) :
    blockMin first (rest ++ [entry]) = min (blockMin first rest) entry.value :=
  List.foldl_append _ _ _ _

theorem blockMin_le (first : QueueEntry) :
    ∀ (rest : List QueueEntry), ∀ entry ∈ first :: rest, blockMin first rest ≤ entry.value := by
  intro rest
  induction rest using List.reverseRecOn with
  | nil => simp [blockMin]
  | append_singleton rest last ih =>
      intro entry hentry
      rw [blockMin_snoc]
      rcases List.mem_append.1 (by simpa using hentry : entry ∈ (first :: rest) ++ [last]) with h | h
      · exact (min_le_left _ _).trans (ih entry h)
      · exact List.mem_singleton.1 h ▸ min_le_right _ _

theorem blockMin_mem (first : QueueEntry) :
    ∀ (rest : List QueueEntry), ∃ entry ∈ first :: rest, entry.value = blockMin first rest := by
  intro rest
  induction rest using List.reverseRecOn with
  | nil => exact ⟨first, List.mem_singleton_self _, rfl⟩
  | append_singleton rest last ih =>
      obtain ⟨entry, hmem, hvalue⟩ := ih
      rw [blockMin_snoc]
      rcases le_total (blockMin first rest) last.value with h | h
      · exact ⟨entry, by rw [← List.cons_append]; exact List.mem_append_left _ hmem,
          by rw [min_eq_left h, hvalue]⟩
      · exact ⟨last, by simp, (min_eq_right h).symm⟩

@[simp] theorem blockEntry_nil (entry : QueueEntry) : blockEntry entry [] = entry := by
  simp [blockEntry, blockMin]

/-- A strictly lower value within the slice becomes the block's entry. -/
theorem blockEntry_snoc_lt {first entry : QueueEntry} {rest : List QueueEntry}
    (h : entry.value < blockMin first rest) : blockEntry first (rest ++ [entry]) = entry := by
  have hmin : blockMin first (rest ++ [entry]) = entry.value := by
    rw [blockMin_snoc, min_eq_right h.le]
  have hnone : (first :: rest).find? (fun e => e.value = entry.value) = none :=
    List.find?_eq_none.2 fun e he => by
      have := blockMin_le first rest e he
      simp only [decide_eq_true_eq]; omega
  simp only [blockEntry, hmin, ← List.cons_append, List.find?_append, hnone, Option.none_or]
  simp

/-- A value not below the block's least leaves the block's entry unchanged. -/
theorem blockEntry_snoc_of_le {first entry : QueueEntry} {rest : List QueueEntry}
    (h : blockMin first rest ≤ entry.value) :
    blockEntry first (rest ++ [entry]) = blockEntry first rest := by
  have hmin : blockMin first (rest ++ [entry]) = blockMin first rest := by
    rw [blockMin_snoc, min_eq_left h]
  obtain ⟨found, hfound⟩ : ∃ found,
      (first :: rest).find? (fun e => e.value = blockMin first rest) = some found := by
    obtain ⟨e, he, hvalue⟩ := blockMin_mem first rest
    exact Option.isSome_iff_exists.1 (List.find?_isSome.2 ⟨e, he, by simpa using hvalue⟩)
  simp only [blockEntry, hmin, ← List.cons_append, List.find?_append, hfound, Option.or_some]

/-- The insertions of a list of blocks, in order. -/
def blockInsertions (blocks : List (QueueEntry × List QueueEntry)) : List QueueEntry :=
  blocks.flatMap fun block => block.1 :: block.2

/-- `queue` holds the entries of the last `cap` blocks. -/
def Summarises (cap : Nat) (blocks : List (QueueEntry × List QueueEntry)) (queue : List QueueEntry) :
    Prop :=
  queue = (blocks.drop (blocks.length - cap)).map fun block => blockEntry block.1 block.2

/-- The number of entries a queue can hold: `maxQueueSize`, and one more
entry than a `maxQueueSize` of `0` allows, since the push follows the shift. -/
def queueCapacity (maxQueueSize : Nat) : Nat :=
  max maxQueueSize 1

theorem queueCapacity_cases (maxQueueSize : Nat) :
    (queueCapacity maxQueueSize = maxQueueSize ∧ 1 ≤ maxQueueSize) ∨
      (maxQueueSize = 0 ∧ queueCapacity maxQueueSize = 1) := by
  unfold queueCapacity
  rcases Nat.eq_zero_or_pos maxQueueSize with h | h
  · exact .inr ⟨h, by simp [h]⟩
  · exact .inl ⟨max_eq_left h, h⟩

theorem summarises_pushEvicting {blocks : List (QueueEntry × List QueueEntry)}
    {queue : List QueueEntry} (h : Summarises (queueCapacity maxQueueSize) blocks queue)
    (entry : QueueEntry) :
    Summarises (queueCapacity maxQueueSize) (blocks ++ [(entry, [])])
      (pushEvicting maxQueueSize queue entry) := by
  unfold Summarises at h ⊢
  subst h
  have hcap := queueCapacity_cases maxQueueSize
  generalize queueCapacity maxQueueSize = cap at hcap ⊢
  have hcap1 : 1 ≤ cap := by rcases hcap with ⟨_, _⟩ | ⟨_, _⟩ <;> omega
  rcases Nat.eq_zero_or_pos blocks.length with hB | hB
  · rw [List.length_eq_zero.1 hB]
    simp [pushEvicting, Nat.sub_eq_zero_of_le hcap1]
  · rw [List.length_append, List.length_singleton, List.drop_append_of_le_length (by omega),
      List.map_append, List.map_singleton, blockEntry_nil, pushEvicting, List.length_map,
      List.length_drop]
    congr 1
    split
    · rw [← List.map_tail, List.tail_drop]
      congr 2
      rcases hcap with ⟨_, _⟩ | ⟨_, _⟩ <;> omega
    · congr 2
      rcases hcap with ⟨_, _⟩ | ⟨_, _⟩ <;> omega

theorem summarises_extend {blocks : List (QueueEntry × List QueueEntry)}
    {front : List QueueEntry} {last : QueueEntry}
    (h : Summarises (queueCapacity maxQueueSize) blocks (front ++ [last])) :
    ∃ blockFront first rest, blocks = blockFront ++ [(first, rest)] ∧ last = blockEntry first rest ∧
      ∀ entry, Summarises (queueCapacity maxQueueSize) (blockFront ++ [(first, rest ++ [entry])])
        (front ++ [blockEntry first (rest ++ [entry])]) := by
  unfold Summarises at h ⊢
  rcases List.eq_nil_or_concat blocks with rfl | ⟨blockFront, ⟨first, rest⟩, rfl⟩
  · simp at h
  · have hcap : 1 ≤ queueCapacity maxQueueSize := le_max_right _ _
    have hdrop : ∀ block : QueueEntry × List QueueEntry,
        ((blockFront ++ [block]).drop ((blockFront ++ [block]).length - queueCapacity maxQueueSize)).map
            (fun block => blockEntry block.1 block.2) =
          (blockFront.drop (blockFront.length + 1 - queueCapacity maxQueueSize)).map
            (fun block => blockEntry block.1 block.2) ++ [blockEntry block.1 block.2] := by
      intro block
      simp only [List.length_append, List.length_singleton]
      rw [List.drop_append_of_le_length (by omega), List.map_append, List.map_singleton]
    rw [List.concat_eq_append, hdrop] at h
    obtain ⟨hfront, hlast⟩ := List.append_inj' h rfl
    refine ⟨blockFront, first, rest, List.concat_eq_append _ _, List.singleton_inj.1 hlast,
      fun entry => ?_⟩
    rw [hdrop, hfront]

/-! ## The window invariant -/

/-- The queue after the insertions `accepted`: a summary of blocks of them,
entries a slice apart, each entry one of the insertions. -/
structure Window (slice maxQueueSize : Nat) (accepted queue : List QueueEntry) : Prop where
  blocks : ∃ blocks, blockInsertions blocks = accepted ∧
    Summarises (queueCapacity maxQueueSize) blocks queue
  spaced : queue.Chain' fun a b => a.timestamp + slice ≤ b.timestamp
  mem : ∀ entry ∈ queue, entry ∈ accepted

theorem window_nil : Window slice maxQueueSize [] [] :=
  ⟨⟨[], rfl, by simp [Summarises]⟩, List.chain'_nil, by simp⟩

theorem chain'_snoc {R : QueueEntry → QueueEntry → Prop} {queue : List QueueEntry}
    {entry : QueueEntry} (h : queue.Chain' R) (hlast : ∀ last ∈ queue.getLast?, R last entry) :
    (queue ++ [entry]).Chain' R :=
  h.append (List.chain'_singleton _) fun x hx _ hy => by cases hy; exact hlast x hx

theorem chain'_tail_append {R : QueueEntry → QueueEntry → Prop} {queue : List QueueEntry}
    {entry : QueueEntry} (h : queue.Chain' R) (hlast : ∀ last ∈ queue.getLast?, R last entry) :
    (queue.tail ++ [entry]).Chain' R := by
  rcases queue with _ | ⟨first, rest⟩
  · exact List.chain'_singleton _
  · exact chain'_snoc h.tail fun last hl => hlast last (List.mem_getLast?_cons hl)

/-- One save, at a timestamp no earlier than any accepted one, keeps the window. -/
theorem window_saveToQueue {accepted queue : List QueueEntry}
    (hw : Window slice maxQueueSize accepted queue) (entry : QueueEntry)
    (hlater : ∀ e ∈ accepted, e.timestamp ≤ entry.timestamp) :
    Window slice maxQueueSize (accepted ++ [entry])
      (saveToQueue slice maxQueueSize queue entry.value entry.timestamp) := by
  obtain ⟨⟨blocks, hins, hsum⟩, hspaced, hmem⟩ := hw
  rcases saveToQueue_cases slice maxQueueSize queue entry.value
      entry.timestamp with ⟨hslice, hsave⟩ | ⟨front, last, rfl, -, ⟨hlt, hsave⟩ | ⟨hle, hsave⟩⟩
  · rw [hsave]
    refine ⟨⟨blocks ++ [(entry, [])], by rw [← hins]; simp [blockInsertions],
      summarises_pushEvicting hsum entry⟩, ?_, fun e he => ?_⟩
    · unfold pushEvicting
      split
      exacts [chain'_tail_append hspaced hslice, chain'_snoc hspaced hslice]
    · unfold pushEvicting at he
      split at he <;> simp only [List.mem_append, List.mem_singleton] at he ⊢
      · exact he.imp (fun h => hmem e (List.mem_of_mem_tail h)) id
      · exact he.imp (hmem e) id
  · obtain ⟨blockFront, first, rest, rfl, rfl, hext⟩ := summarises_extend hsum
    have hlast : (blockEntry first rest).timestamp ≤ entry.timestamp :=
      hlater _ (hmem _ (by simp))
    rw [hsave]
    refine ⟨⟨blockFront ++ [(first, rest ++ [entry])], by rw [← hins]; simp [blockInsertions], ?_⟩, ?_, ?_⟩
    · have := hext entry
      rwa [blockEntry_snoc_lt hlt] at this
    · obtain ⟨hfront, -, hjoin⟩ := List.chain'_append.1 hspaced
      exact chain'_snoc hfront fun x hx => (hjoin x hx _ (by simp)).trans hlast
    · intro e he
      simp only [List.mem_append, List.mem_singleton] at he ⊢
      exact he.imp (fun h => hmem e (List.mem_append_left _ h)) id
  · obtain ⟨blockFront, first, rest, rfl, rfl, hext⟩ := summarises_extend hsum
    rw [hsave]
    refine ⟨⟨blockFront ++ [(first, rest ++ [entry])], by rw [← hins]; simp [blockInsertions], ?_⟩,
      hspaced, fun e he => List.mem_append_left _ (hmem e he)⟩
    have := hext entry
    rwa [blockEntry_snoc_of_le hle] at this

/-- Every run of saves at non-decreasing timestamps from the empty queue keeps
the window. -/
theorem window_saveAll :
    ∀ insertions : List QueueEntry, insertions.Pairwise (fun a b => a.timestamp ≤ b.timestamp) →
      Window slice maxQueueSize insertions (saveAll slice maxQueueSize [] insertions) := by
  intro insertions
  induction insertions using List.reverseRecOn with
  | nil => exact fun _ => window_nil
  | append_singleton insertions entry ih =>
      intro hsorted
      rw [List.pairwise_append] at hsorted
      rw [saveAll_append_singleton]
      exact window_saveToQueue (ih hsorted.1) entry fun e he => hsorted.2.2 e he entry (by simp)

theorem length_le_of_summarises {cap : Nat} {blocks : List (QueueEntry × List QueueEntry)}
    {queue : List QueueEntry} (h : Summarises cap blocks queue) : queue.length ≤ cap := by
  rw [h, List.length_map, List.length_drop]
  omega

/-- The window read off a queue: at most `queueCapacity maxQueueSize` entries, a
slice apart, summarising the last blocks of the accepted insertions. -/
def WindowProperties (slice maxQueueSize : Nat) (accepted queue : List QueueEntry) : Prop :=
  queue.length ≤ queueCapacity maxQueueSize ∧
    queue.Chain' (fun a b => a.timestamp + slice ≤ b.timestamp) ∧
    ∃ blocks, blockInsertions blocks = accepted ∧ Summarises (queueCapacity maxQueueSize) blocks queue

theorem windowProperties_saveAll (insertions : List QueueEntry)
    (hsorted : insertions.Pairwise fun a b => a.timestamp ≤ b.timestamp) :
    WindowProperties slice maxQueueSize insertions (saveAll slice maxQueueSize [] insertions) := by
  obtain ⟨⟨blocks, hins, hsum⟩, hspaced, -⟩ := window_saveAll insertions hsorted
  exact ⟨length_le_of_summarises hsum, hspaced, blocks, hins, hsum⟩

end AltoBundler.GasPrice
