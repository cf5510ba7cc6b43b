import AltoBundler.GasPrice.Reachable

/-!
# A quoted price passes validation

`validateGasPrice` compares a user's fees with the least entries of the two fee
queues.  A quote of `getGasPrice` is at least the last entry of each queue when
it is taken (`lowWithin_quote`), and a queue entry only decreases until it is
evicted.  So the quote stays at least some entry among the last `n + 1` entries
of each queue after `n` appends to it (`lowWithin_saveToQueue`), and those
entries are still in the queue as long as fewer appends than the queue
capacity have happened since (`validateGasPrice_quote`).
-/

namespace AltoBundler.GasPrice

/-- The state after the refreshes `events`. -/
def GasPriceManagerState.run (state : GasPriceManagerState) (events : List GasPriceEvent) :
    GasPriceManagerState :=
  events.foldl GasPriceManagerState.apply state

/-- Whether `event` appends a new entry to `queue`, one of the two fee queues. -/
def appendsTo (queue : GasPriceManagerState → List QueueEntry) (state : GasPriceManagerState) :
    GasPriceEvent → Bool
  | .gasPriceSaved (.ok _) timestamp => appendsAt 1000 (queue state) timestamp
  | _ => false

/-- The number of events of a run that append to `queue`. -/
def appendCount (queue : GasPriceManagerState → List QueueEntry) :
    GasPriceManagerState → List GasPriceEvent → Nat
  | _, [] => 0
  | state, event :: events =>
      (if appendsTo queue state event then 1 else 0) + appendCount queue (state.apply event) events

/-- Some entry among the last `count + 1` of `queue` is at most `bound`. -/
def LowWithin (queue : List QueueEntry) (count bound : Nat) : Prop :=
  ∃ entry ∈ queue.drop (queue.length - (count + 1)), entry.value ≤ bound

theorem lowWithin_of_getLast {queue : List QueueEntry} {bound : Nat} (hne : queue ≠ [])
    (h : ∀ last ∈ queue.getLast?, last.value ≤ bound) : LowWithin queue 0 bound := by
  obtain ⟨front, last, rfl⟩ := (List.eq_nil_or_concat queue).resolve_left hne
  refine ⟨last, ?_, h last (by simp)⟩
  simp

theorem drop_snoc_eq {α : Type} (front : List α) (last : α) (count : Nat) :
    (front ++ [last]).drop ((front ++ [last]).length - (count + 1)) =
      front.drop (front.length - count) ++ [last] := by
  rw [List.length_append, List.length_singleton, Nat.add_sub_add_right,
    List.drop_append_of_le_length (Nat.sub_le _ _)]

variable {slice maxQueueSize : Nat}

/-- One save keeps a low entry among the last entries, one more of them after
an append, as long as that append does not reach the queue capacity. -/
theorem lowWithin_saveToQueue {queue : List QueueEntry} {count bound : Nat}
    (h : LowWithin queue count bound) (value timestamp : Nat)
    (hroom : appendsAt slice queue timestamp = true → count + 1 < queueCapacity maxQueueSize) :
    LowWithin (saveToQueue slice maxQueueSize queue value timestamp)
      (count + if appendsAt slice queue timestamp then 1 else 0) bound := by
  obtain ⟨entry, hentry, hle⟩ := h
  rcases saveToQueue_cases slice maxQueueSize queue value timestamp with
    ⟨hslice, hsave⟩ | ⟨front, last, rfl, hlt, hkeep⟩
  · have happ := appendsAt_iff.2 hslice
    have hcap := hroom happ
    rw [hsave, if_pos happ]
    refine ⟨entry, ?_, hle⟩
    unfold pushEvicting
    split
    · have hm : count + 2 ≤ queue.length := by
        rcases queueCapacity_cases maxQueueSize with ⟨h, _⟩ | ⟨_, h⟩ <;> omega
      rw [drop_snoc_eq, List.drop_tail, List.length_tail,
        show queue.length - 1 - (count + 1) + 1 = queue.length - (count + 1) by omega]
      exact List.mem_append_left _ hentry
    · rw [drop_snoc_eq]
      exact List.mem_append_left _ hentry
  · have happ : appendsAt slice (front ++ [last]) timestamp = false :=
      Bool.eq_false_iff.2 fun h => absurd (appendsAt_iff.1 h last (by simp)) (by omega)
    rw [happ, if_neg Bool.false_ne_true, Nat.add_zero]
    rcases hkeep with ⟨hlow, hsave⟩ | ⟨-, hsave⟩
    · rw [hsave]
      rw [drop_snoc_eq] at hentry
      rcases List.mem_append.1 hentry with hfront | hlast
      · exact ⟨entry, by rw [drop_snoc_eq]; exact List.mem_append_left _ hfront, hle⟩
      · obtain rfl := List.mem_singleton.1 hlast
        exact ⟨⟨timestamp, value⟩, by rw [drop_snoc_eq]; simp, by dsimp only; omega⟩
    · rw [hsave]
      exact ⟨entry, hentry, hle⟩

/-! ## Runs of refreshes -/

theorem apply_maxQueueSize (state : GasPriceManagerState) (event : GasPriceEvent) :
    (state.apply event).maxQueueSize = state.maxQueueSize := by
  cases event with
  | gasPriceSaved gasPrice timestamp => cases gasPrice <;> rfl
  | baseFeeSaved latestBlock timestamp =>
      cases latestBlock with
      | error => rfl
      | ok baseFee => cases baseFee <;> rfl

/-- How the refreshes change a fee queue: a saved gas price is saved into it
with its `fee`, and nothing else touches it. -/
structure SavesFee (queue : GasPriceManagerState → List QueueEntry)
    (fee : GasPriceParameters → Nat) : Prop where
  saved : ∀ state gasPrice timestamp,
    queue (state.apply (.gasPriceSaved (.ok gasPrice) timestamp)) =
      saveToQueue 1000 state.maxQueueSize (queue state) (fee gasPrice) timestamp
  failed : ∀ state error timestamp,
    queue (state.apply (.gasPriceSaved (.error error) timestamp)) = queue state
  baseFee : ∀ state latestBlock timestamp,
    queue (state.apply (.baseFeeSaved latestBlock timestamp)) = queue state

theorem apply_baseFeeSaved (state : GasPriceManagerState) (latestBlock : Except String (Option Nat))
    (timestamp : Nat) :
    (state.apply (.baseFeeSaved latestBlock timestamp)).queueMaxFeePerGas = state.queueMaxFeePerGas ∧
      (state.apply (.baseFeeSaved latestBlock timestamp)).queueMaxPriorityFeePerGas =
        state.queueMaxPriorityFeePerGas := by
  cases latestBlock with
  | error => exact ⟨rfl, rfl⟩
  | ok baseFee => cases baseFee <;> exact ⟨rfl, rfl⟩

theorem savesFee_maxFeePerGas :
    SavesFee GasPriceManagerState.queueMaxFeePerGas GasPriceParameters.maxFeePerGas where
  saved _ _ _ := rfl
  failed _ _ _ := rfl
  baseFee state latestBlock timestamp := (apply_baseFeeSaved state latestBlock timestamp).1

theorem savesFee_maxPriorityFeePerGas :
    SavesFee GasPriceManagerState.queueMaxPriorityFeePerGas GasPriceParameters.maxPriorityFeePerGas where
  saved _ _ _ := rfl
  failed _ _ _ := rfl
  baseFee state latestBlock timestamp := (apply_baseFeeSaved state latestBlock timestamp).2

section SavesFee

variable {queue : GasPriceManagerState → List QueueEntry} {fee : GasPriceParameters → Nat}
  {bound : Nat}

theorem SavesFee.lowWithin_apply (h : SavesFee queue fee) {state : GasPriceManagerState}
    {count : Nat} (hlow : LowWithin (queue state) count bound) (event : GasPriceEvent)
    (hroom : appendsTo queue state event = true → count + 1 < queueCapacity state.maxQueueSize) :
    LowWithin (queue (state.apply event)) (count + if appendsTo queue state event then 1 else 0)
      bound := by
  cases event with
  | gasPriceSaved gasPrice timestamp =>
      cases gasPrice with
      | error => simpa [h.failed, appendsTo] using hlow
      | ok gasPrice =>
          rw [h.saved]
          exact lowWithin_saveToQueue hlow _ timestamp hroom
  | baseFeeSaved latestBlock timestamp => simpa [h.baseFee, appendsTo] using hlow

/-- Over a run, a low entry stays among the last entries, one more for each
append, while the appends stay below the capacity. -/
theorem SavesFee.lowWithin_run (h : SavesFee queue fee) :
    ∀ (events : List GasPriceEvent) (state : GasPriceManagerState) (count : Nat),
      LowWithin (queue state) count bound →
      count + appendCount queue state events < queueCapacity state.maxQueueSize →
      LowWithin (queue (state.run events)) (count + appendCount queue state events) bound
  | [], _, _, hlow, _ => hlow
  | event :: events, state, count, hlow, hroom => by
      simp only [appendCount] at hroom ⊢
      have hnext := h.lowWithin_apply hlow event fun happ => by rw [if_pos happ] at hroom; omega
      have := h.lowWithin_run events (state.apply event) _ hnext (by rw [apply_maxQueueSize]; omega)
      simpa only [GasPriceManagerState.run, List.foldl_cons, Nat.add_assoc] using this

end SavesFee

/-! ## The quote and the check -/

variable {config : GasPriceConfig} {state : GasPriceManagerState}

/-- A quote is at least the last entry of each fee queue it leaves behind. -/
theorem lowWithin_quote (hr : Reachable config state) (refresh : Refresh)
    {quoted : GasPriceParameters} {quotedState : GasPriceManagerState}
    (hquote : getGasPrice config state refresh = .ok (quoted, quotedState)) :
    quotedState.maxQueueSize = state.maxQueueSize ∧
      LowWithin quotedState.queueMaxFeePerGas 0 quoted.maxFeePerGas ∧
      LowWithin quotedState.queueMaxPriorityFeePerGas 0 quoted.maxPriorityFeePerGas := by
  unfold getGasPrice at hquote
  split at hquote
  · obtain ⟨hgas, rfl⟩ := updateGasPrice_eq_ok hquote
    exact ⟨rfl, lowWithin_of_getLast (by simp [saveToQueue_ne_nil]) (by
        simpa using getLast_saveToQueue_le 1000 state.maxQueueSize _ _ _),
      lowWithin_of_getLast (by simp [saveToQueue_ne_nil]) (by
        simpa using getLast_saveToQueue_le 1000 state.maxQueueSize _ _ _)⟩
  · have hs := hr.queuesNonEmpty
    split at hquote
    · rename_i priority max hpriority hmax
      cases hquote
      exact ⟨rfl, lowWithin_of_getLast hs.maxFee (by simp [hmax]),
        lowWithin_of_getLast hs.maxPriorityFee (by simp [hpriority])⟩
    · cases hquote

theorem queueMin_le (first : QueueEntry) (rest : List QueueEntry) :
    ∀ entry ∈ first :: rest, queueMin first rest ≤ entry.value := by
  have key : ∀ (entries : List QueueEntry) (acc : Nat),
      entries.foldl (fun acc cur => min cur.value acc) acc ≤ acc ∧
        ∀ entry ∈ entries, entries.foldl (fun acc cur => min cur.value acc) acc ≤ entry.value := by
    intro entries
    induction entries with
    | nil => simp
    | cons head tail ih =>
        intro acc
        obtain ⟨hacc, hall⟩ := ih (min head.value acc)
        refine ⟨hacc.trans (min_le_right _ _), ?_⟩
        simp only [List.mem_cons, forall_eq_or_imp, List.foldl_cons]
        exact ⟨hacc.trans (min_le_left _ _), hall⟩
  exact (key (first :: rest) first.value).2

/-- `validateGasPrice` passes fees that are at least some entry of each fee queue. -/
theorem validateGasPrice_of_le (gasPrice : GasPriceParameters) (refresh refresh' : Refresh)
    (hfee : ∃ entry ∈ state.queueMaxFeePerGas, entry.value ≤ gasPrice.maxFeePerGas)
    (hpriority : ∃ entry ∈ state.queueMaxPriorityFeePerGas, entry.value ≤ gasPrice.maxPriorityFeePerGas) :
    validateGasPrice config state gasPrice refresh refresh' = .ok state := by
  obtain ⟨fee, hfeeMem, hfeeLe⟩ := hfee
  obtain ⟨priority, hpriorityMem, hpriorityLe⟩ := hpriority
  cases hF : state.queueMaxFeePerGas with
  | nil => simp [hF] at hfeeMem
  | cons first rest =>
      cases hP : state.queueMaxPriorityFeePerGas with
      | nil => simp [hP] at hpriorityMem
      | cons first' rest' =>
          -- the Hedera scaling only lowers the least entry
          have hscale : ∀ n : Nat, n / 10 ^ 9 ≤ n := fun n => Nat.div_le_self n _
          have hminFee := queueMin_le first rest fee (hF ▸ hfeeMem)
          have hminPriority := queueMin_le first' rest' priority (hP ▸ hpriorityMem)
          have hpassFee : ¬ gasPrice.maxFeePerGas < if config.chainType = "hedera" then
              queueMin first rest / 10 ^ 9 else queueMin first rest := by
            have := hscale (queueMin first rest)
            split <;> omega
          have hpassPriority : ¬ gasPrice.maxPriorityFeePerGas < if config.chainType = "hedera" then
              queueMin first' rest' / 10 ^ 9 else queueMin first' rest' := by
            have := hscale (queueMin first' rest')
            split <;> omega
          simp only [validateGasPrice, getMinMaxFeePerGas, getMinMaxPriorityFeePerGas, hF, hP,
            reduceCtorEq, if_false, pure, Except.pure, bind, Except.bind, hpassFee, hpassPriority]

/-- A quote of `getGasPrice`, in either refresh mode, passes `validateGasPrice`,
and keeps passing after further refreshes while fewer of them than the queue
capacity append to each fee queue (with `maxQueueSize ≥ 1`, fewer than
`maxQueueSize`). -/
theorem validateGasPrice_quote (hr : Reachable config state) (refresh : Refresh)
    {quoted : GasPriceParameters} {quotedState : GasPriceManagerState}
    (hquote : getGasPrice config state refresh = .ok (quoted, quotedState))
    (events : List GasPriceEvent)
    (hfee : appendCount GasPriceManagerState.queueMaxFeePerGas quotedState events <
      queueCapacity state.maxQueueSize)
    (hpriority : appendCount GasPriceManagerState.queueMaxPriorityFeePerGas quotedState events <
      queueCapacity state.maxQueueSize)
    (refresh₁ refresh₂ : Refresh) :
    validateGasPrice config (quotedState.run events) quoted refresh₁ refresh₂ =
      .ok (quotedState.run events) := by
  obtain ⟨hsize, hlowFee, hlowPriority⟩ := lowWithin_quote hr refresh hquote
  obtain ⟨fee, hfeeMem, hfeeLe⟩ :=
    savesFee_maxFeePerGas.lowWithin_run events quotedState 0 hlowFee (by rw [hsize]; omega)
  obtain ⟨priority, hpriorityMem, hpriorityLe⟩ :=
    savesFee_maxPriorityFeePerGas.lowWithin_run events quotedState 0 hlowPriority
      (by rw [hsize]; omega)
  exact validateGasPrice_of_le quoted refresh₁ refresh₂ ⟨fee, List.mem_of_mem_drop hfeeMem, hfeeLe⟩
    ⟨priority, List.mem_of_mem_drop hpriorityMem, hpriorityLe⟩

/-- A quote of the fresh pair `(8, 5)`, then a refresh that appends `(20, 20)`
to both queues: the window minima stay `8` and `5`, which the quote meets with
equality. -/
theorem validateGasPrice_quote_refreshed :
    let config : GasPriceConfig := ⟨10, 0, false, "default"⟩
    let created : GasPriceManagerState := ⟨10, [⟨0, 1⟩], [⟨0, 10⟩], [⟨0, 5⟩]⟩
    let refresh : Refresh := ⟨.ok ⟨8, 5⟩, .ok (some 1), 500⟩
    let quotedState : GasPriceManagerState := ⟨10, [⟨0, 1⟩], [⟨500, 8⟩], [⟨0, 5⟩]⟩
    let events := [GasPriceEvent.gasPriceSaved (.ok ⟨20, 20⟩) 1500]
    Reachable config created ∧ getGasPrice config created refresh = .ok (⟨8, 5⟩, quotedState) ∧
      appendCount GasPriceManagerState.queueMaxFeePerGas quotedState events = 1 ∧
      appendCount GasPriceManagerState.queueMaxPriorityFeePerGas quotedState events = 1 ∧
      validateGasPrice config (quotedState.run events) ⟨8, 5⟩ refresh refresh = .ok (quotedState.run events) :=
  have hr : Reachable ⟨10, 0, false, "default"⟩ ⟨10, [⟨0, 1⟩], [⟨0, 10⟩], [⟨0, 5⟩]⟩ :=
    .create (.ok ⟨10, 5⟩) (.ok (some 1)) 0 0 rfl
  have hquote : getGasPrice ⟨10, 0, false, "default"⟩ ⟨10, [⟨0, 1⟩], [⟨0, 10⟩], [⟨0, 5⟩]⟩
      ⟨.ok ⟨8, 5⟩, .ok (some 1), 500⟩ = .ok (⟨8, 5⟩, ⟨10, [⟨0, 1⟩], [⟨500, 8⟩], [⟨0, 5⟩]⟩) := rfl
  ⟨hr, hquote, rfl, rfl, validateGasPrice_quote hr _ hquote _ (by decide) (by decide) _ _⟩

end AltoBundler.GasPrice
