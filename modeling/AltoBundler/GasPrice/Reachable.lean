import AltoBundler.GasPrice.Manager

/-!
# Runs of the gas-price manager

The five queues keep the window of `History.lean` under their own save
functions (`history_windows`), and the reachable states keep the fee queues
non-empty (`Reachable.queuesNonEmpty`), so the cached readers never destructure an
empty queue (`readers_no_typeError`).

The two fee queues are saved independently, so their last entries need not
come from one refresh.  `getGasPrice_inconsistent_pair` is such a run: a dip
of the max fee within a slice overwrites its last entry, the priority fee
stays, and a later refresh past the priority entry's slice but within the max
fee entry's slice appends to the priority queue only.
-/

namespace AltoBundler.GasPrice

/-! ## The window of each queue -/

/-- The state after calling `save` on each insertion in turn. -/
def saveEach {σ : Type} (save : σ → Nat → Nat → σ) (start : σ) (insertions : List QueueEntry) : σ :=
  insertions.foldl (fun state entry => save state entry.value entry.timestamp) start

section SaveEach

/-! A save function that runs `saveToQueue` on one field for the values it
accepts, and leaves the queue size alone. -/

variable {σ : Type} (save : σ → Nat → Nat → σ) (queue : σ → List QueueEntry) (size : σ → Nat)
  (slice : Nat) (accept : Nat → Bool)
  (hqueue : ∀ state value timestamp, queue (save state value timestamp) =
    if accept value then saveToQueue slice (size state) (queue state) value timestamp else queue state)
  (hsize : ∀ state value timestamp, size (save state value timestamp) = size state)
include hqueue hsize

/-- Such a save function runs `saveAll` on its field over the accepted insertions. -/
theorem saveEach_queue :
    ∀ (insertions : List QueueEntry) (start : σ), queue (saveEach save start insertions) =
      saveAll slice (size start) (queue start) (insertions.filter fun entry => accept entry.value)
  | [], _ => rfl
  | entry :: insertions, start => by
      rw [saveEach, List.foldl_cons, ← saveEach, saveEach_queue, hqueue, hsize, List.filter_cons]
      split <;> rfl

/-- Run from an empty queue over sorted insertions, it keeps the window over the
accepted ones. -/
theorem windowProperties_saveEach (insertions : List QueueEntry)
    (hsorted : insertions.Pairwise fun a b => a.timestamp ≤ b.timestamp)
    (start : σ) (hempty : queue start = []) :
    WindowProperties slice (size start) (insertions.filter fun entry => accept entry.value)
      (queue (saveEach save start insertions)) := by
  rw [saveEach_queue save queue size slice accept hqueue hsize, hempty]
  exact windowProperties_saveAll _ (hsorted.sublist (List.filter_sublist _))

end SaveEach

/-- Each of the five history queues, run from empty over insertions at
non-decreasing timestamps, holds at most `queueCapacity maxQueueSize` entries a
slice apart that summarise the last blocks of the accepted insertions. -/
theorem history_windows (insertions : List QueueEntry)
    (hsorted : insertions.Pairwise fun a b => a.timestamp ≤ b.timestamp)
    (state : GasPriceManagerState) (arbitrum : ArbitrumManagerState) :
    WindowProperties 1000 state.maxQueueSize insertions
        (saveEach saveBaseFeePerGas { state with queueBaseFeePerGas := [] } insertions).queueBaseFeePerGas ∧
      WindowProperties 1000 state.maxQueueSize insertions
        (saveEach saveMaxFeePerGas { state with queueMaxFeePerGas := [] } insertions).queueMaxFeePerGas ∧
      WindowProperties 1000 state.maxQueueSize insertions
        (saveEach saveMaxPriorityFeePerGas { state with queueMaxPriorityFeePerGas := [] }
          insertions).queueMaxPriorityFeePerGas ∧
      WindowProperties queueValidity arbitrum.maxQueueSize (insertions.filter fun entry => entry.value ≠ 0)
        (saveEach saveL1BaseFee { arbitrum with queueL1BaseFee := [] } insertions).queueL1BaseFee ∧
      WindowProperties queueValidity arbitrum.maxQueueSize (insertions.filter fun entry => entry.value ≠ 0)
        (saveEach saveL2BaseFee { arbitrum with queueL2BaseFee := [] } insertions).queueL2BaseFee := by
  -- the three fee queues accept every value, the two Arbitrum queues every value but 0
  have hall : (insertions.filter fun _ => true) = insertions := List.filter_true _
  refine ⟨?_, ?_, ?_, ?_, ?_⟩
  · simpa only [hall] using windowProperties_saveEach saveBaseFeePerGas
      GasPriceManagerState.queueBaseFeePerGas GasPriceManagerState.maxQueueSize 1000 (fun _ => true)
      (fun _ _ _ => rfl) (fun _ _ _ => rfl) insertions hsorted _ rfl
  · simpa only [hall] using windowProperties_saveEach saveMaxFeePerGas
      GasPriceManagerState.queueMaxFeePerGas GasPriceManagerState.maxQueueSize 1000 (fun _ => true)
      (fun _ _ _ => rfl) (fun _ _ _ => rfl) insertions hsorted _ rfl
  · simpa only [hall] using windowProperties_saveEach saveMaxPriorityFeePerGas
      GasPriceManagerState.queueMaxPriorityFeePerGas GasPriceManagerState.maxQueueSize 1000 (fun _ => true)
      (fun _ _ _ => rfl) (fun _ _ _ => rfl) insertions hsorted _ rfl
  · exact windowProperties_saveEach saveL1BaseFee ArbitrumManagerState.queueL1BaseFee
      ArbitrumManagerState.maxQueueSize queueValidity (fun value => value ≠ 0)
      (fun _ value _ => by by_cases h : value = 0 <;> simp [saveL1BaseFee, h])
      (fun _ value _ => by by_cases h : value = 0 <;> simp [saveL1BaseFee, h]) insertions hsorted _ rfl
  · exact windowProperties_saveEach saveL2BaseFee ArbitrumManagerState.queueL2BaseFee
      ArbitrumManagerState.maxQueueSize queueValidity (fun value => value ≠ 0)
      (fun _ value _ => by by_cases h : value = 0 <;> simp [saveL2BaseFee, h])
      (fun _ value _ => by by_cases h : value = 0 <;> simp [saveL2BaseFee, h]) insertions hsorted _ rfl

/-- The insertions of the spec's scenario S5, `(10, 0)`, `(8, 500)`, `(9, 1500)`:
the dip overwrites the first entry and the third value opens a new slice. -/
theorem history_windows_scenario :
    let insertions : List QueueEntry := [⟨0, 10⟩, ⟨500, 8⟩, ⟨1500, 9⟩]
    let state := GasPriceManagerState.init 3
    insertions.Pairwise (fun a b => a.timestamp ≤ b.timestamp) ∧
      (saveEach saveMaxFeePerGas { state with queueMaxFeePerGas := [] } insertions).queueMaxFeePerGas =
        [⟨500, 8⟩, ⟨1500, 9⟩] ∧
      WindowProperties 1000 state.maxQueueSize insertions
        (saveEach saveMaxFeePerGas { state with queueMaxFeePerGas := [] } insertions).queueMaxFeePerGas :=
  ⟨by decide, rfl, (history_windows _ (by decide) _ ⟨3, [], []⟩).2.1⟩

/-! ## The window maximum -/

@[simp] theorem saveEach_append_singleton {σ : Type} (save : σ → Nat → Nat → σ) (start : σ)
    (insertions : List QueueEntry) (entry : QueueEntry) :
    saveEach save start (insertions ++ [entry]) = save (saveEach save start insertions) entry.value entry.timestamp :=
  List.foldl_append _ _ _ _

theorem le_queueMax (first : QueueEntry) (rest : List QueueEntry) :
    ∀ entry ∈ first :: rest, entry.value ≤ queueMax first rest := by
  have key : ∀ (entries : List QueueEntry) (acc : Nat),
      acc ≤ entries.foldl (fun acc cur => max cur.value acc) acc ∧
        ∀ entry ∈ entries, entry.value ≤ entries.foldl (fun acc cur => max cur.value acc) acc := by
    intro entries
    induction entries with
    | nil => simp
    | cons head tail ih =>
        intro acc
        obtain ⟨hacc, hall⟩ := ih (max head.value acc)
        refine ⟨(le_max_right _ _).trans hacc, ?_⟩
        simp only [List.mem_cons, forall_eq_or_imp, List.foldl_cons]
        exact ⟨(le_max_left _ _).trans hacc, hall⟩
  exact (key (first :: rest) first.value).2

/-- After `entry` was saved into the queue `before`, giving `after`, the value
`windowMax` bounds every entry of `after`, and the inserted value unless the
in-slice rule discarded it: it came within the slice of the last entry and was
not below it. -/
def BoundsWindow (slice : Nat) (before after : List QueueEntry) (entry : QueueEntry) (windowMax : Nat) :
    Prop :=
  (∀ kept ∈ after, kept.value ≤ windowMax) ∧
    (entry.value ≤ windowMax ∨
      ∃ last ∈ before.getLast?, entry.timestamp < last.timestamp + slice ∧ last.value ≤ entry.value)

/-- One save leaves a non-empty queue whose max-reduce bounds it. -/
theorem boundsWindow_saveToQueue (slice maxQueueSize : Nat) (queue : List QueueEntry) (entry : QueueEntry) :
    ∃ first rest, saveToQueue slice maxQueueSize queue entry.value entry.timestamp = first :: rest ∧
      BoundsWindow slice queue (first :: rest) entry (queueMax first rest) := by
  have hne : saveToQueue slice maxQueueSize queue entry.value entry.timestamp ≠ [] := saveToQueue_ne_nil _ _ _
  obtain ⟨first, rest, hq⟩ := List.exists_cons_of_ne_nil hne
  refine ⟨first, rest, hq, le_queueMax first rest, ?_⟩
  rcases saveToQueue_cases slice maxQueueSize queue entry.value entry.timestamp with
    ⟨-, hsave⟩ | ⟨front, last, rfl, hlt, ⟨-, hsave⟩ | ⟨hle, hsave⟩⟩
  · -- appended
    exact .inl (le_queueMax first rest ⟨entry.timestamp, entry.value⟩ (by
      rw [← hq, hsave, pushEvicting]; simp))
  · -- replaced the last entry
    exact .inl (le_queueMax first rest ⟨entry.timestamp, entry.value⟩ (by rw [← hq, hsave]; simp))
  · -- discarded
    exact .inr ⟨last, by simp, hlt, hle⟩

/-- For every insertion sequence ending in `entry`, the max-reduce of
`getMaxBaseFeePerGas`, returned without a refresh, bounds every entry of the
window, and the last inserted value unless the in-slice rule discarded it; so
do those of `getMaxL1BaseFee` and `getMaxL2BaseFee` when `entry` is not `0n`,
the value the Arbitrum queues drop.  `saveBaseFeePerGas` saves `0n` like any
other value, so the base-fee bound holds for it too. -/
theorem windowMax_bounds (config : GasPriceConfig) (refresh : Refresh) (state : GasPriceManagerState)
    (arbitrum : ArbitrumManagerState) (insertions : List QueueEntry) (entry : QueueEntry) :
    (∃ maxBaseFeePerGas,
      getMaxBaseFeePerGas config (saveEach saveBaseFeePerGas state (insertions ++ [entry])) refresh =
          .ok (maxBaseFeePerGas, saveEach saveBaseFeePerGas state (insertions ++ [entry])) ∧
        BoundsWindow 1000 (saveEach saveBaseFeePerGas state insertions).queueBaseFeePerGas
          (saveEach saveBaseFeePerGas state (insertions ++ [entry])).queueBaseFeePerGas entry maxBaseFeePerGas) ∧
      (entry.value ≠ 0 →
        BoundsWindow queueValidity (saveEach saveL1BaseFee arbitrum insertions).queueL1BaseFee
          (saveEach saveL1BaseFee arbitrum (insertions ++ [entry])).queueL1BaseFee entry
          (getMaxL1BaseFee (saveEach saveL1BaseFee arbitrum (insertions ++ [entry]))) ∧
        BoundsWindow queueValidity (saveEach saveL2BaseFee arbitrum insertions).queueL2BaseFee
          (saveEach saveL2BaseFee arbitrum (insertions ++ [entry])).queueL2BaseFee entry
          (getMaxL2BaseFee (saveEach saveL2BaseFee arbitrum (insertions ++ [entry])))) := by
  simp only [saveEach_append_singleton]
  generalize saveEach saveBaseFeePerGas state insertions = state
  generalize saveEach saveL1BaseFee arbitrum insertions = arbitrumL1
  generalize saveEach saveL2BaseFee arbitrum insertions = arbitrumL2
  obtain ⟨first, rest, hq, hbounds⟩ :=
    boundsWindow_saveToQueue 1000 state.maxQueueSize state.queueBaseFeePerGas entry
  obtain ⟨first₁, rest₁, hq₁, hbounds₁⟩ :=
    boundsWindow_saveToQueue queueValidity arbitrumL1.maxQueueSize arbitrumL1.queueL1BaseFee entry
  obtain ⟨first₂, rest₂, hq₂, hbounds₂⟩ :=
    boundsWindow_saveToQueue queueValidity arbitrumL2.maxQueueSize arbitrumL2.queueL2BaseFee entry
  refine ⟨⟨queueMax first rest, ?_, by rwa [saveBaseFeePerGas_queueBaseFeePerGas, hq]⟩,
    fun hvalue => ⟨?_, ?_⟩⟩
  · simp [getMaxBaseFeePerGas, hq, pure, Except.pure, bind, Except.bind]
  · simpa [saveL1BaseFee, hvalue, getMaxL1BaseFee, hq₁] using hbounds₁
  · simpa [saveL2BaseFee, hvalue, getMaxL2BaseFee, hq₂] using hbounds₂

/-- A base fee of 10, then a rise to 20 within the slice: the rise is discarded,
and the window maximum stays below the last inserted base fee. -/
theorem getMaxBaseFeePerGas_below_rise :
    let state := saveEach saveBaseFeePerGas (GasPriceManagerState.init 3) [⟨0, 10⟩, ⟨500, 20⟩]
    state.queueBaseFeePerGas = [⟨0, 10⟩] ∧
      ∃ maxBaseFeePerGas, getMaxBaseFeePerGas ⟨3, 0, false, ""⟩ state ⟨.error "", .error "", 0⟩ =
        .ok (maxBaseFeePerGas, state) ∧ maxBaseFeePerGas < 20 :=
  ⟨rfl, 10, rfl, by decide⟩

/-- The run of `getMaxBaseFeePerGas_below_rise`, where the bound on the inserted
value comes from the discarding branch. -/
theorem windowMax_bounds_rise :
    let config : GasPriceConfig := ⟨3, 0, false, ""⟩
    let refresh : Refresh := ⟨.error "", .error "", 0⟩
    let state := GasPriceManagerState.init 3
    let arbitrum : ArbitrumManagerState := ⟨3, [], []⟩
    let insertions : List QueueEntry := [⟨0, 10⟩]
    let entry : QueueEntry := ⟨500, 20⟩
    entry.value ≠ 0 ∧
      (∃ maxBaseFeePerGas,
        getMaxBaseFeePerGas config (saveEach saveBaseFeePerGas state (insertions ++ [entry])) refresh =
            .ok (maxBaseFeePerGas, saveEach saveBaseFeePerGas state (insertions ++ [entry])) ∧
          BoundsWindow 1000 (saveEach saveBaseFeePerGas state insertions).queueBaseFeePerGas
            (saveEach saveBaseFeePerGas state (insertions ++ [entry])).queueBaseFeePerGas entry maxBaseFeePerGas) ∧
        BoundsWindow queueValidity (saveEach saveL1BaseFee arbitrum insertions).queueL1BaseFee
          (saveEach saveL1BaseFee arbitrum (insertions ++ [entry])).queueL1BaseFee entry
          (getMaxL1BaseFee (saveEach saveL1BaseFee arbitrum (insertions ++ [entry]))) ∧
        BoundsWindow queueValidity (saveEach saveL2BaseFee arbitrum insertions).queueL2BaseFee
          (saveEach saveL2BaseFee arbitrum (insertions ++ [entry])).queueL2BaseFee entry
          (getMaxL2BaseFee (saveEach saveL2BaseFee arbitrum (insertions ++ [entry]))) :=
  have hbounds := windowMax_bounds ⟨3, 0, false, ""⟩ ⟨.error "", .error "", 0⟩ (.init 3) ⟨3, [], []⟩
    [⟨0, 10⟩] ⟨500, 20⟩
  ⟨by decide, hbounds.1, hbounds.2 (by decide)⟩

/-! ## Non-empty queues -/

variable {config : GasPriceConfig} {state state' : GasPriceManagerState}

theorem updateGasPrice_eq_ok {gasPrice : Except String GasPriceParameters} {timestamp : Nat}
    {quoted : GasPriceParameters} (h : updateGasPrice state gasPrice timestamp = .ok (quoted, state')) :
    gasPrice = .ok quoted ∧ state' = saveMaxPriorityFeePerGas
      (saveMaxFeePerGas state quoted.maxFeePerGas timestamp) quoted.maxPriorityFeePerGas timestamp := by
  unfold updateGasPrice at h
  split at h
  · cases h
  · cases h
    exact ⟨rfl, rfl⟩

theorem updateBaseFee_eq_ok {latestBlock : Except String (Option Nat)} {timestamp baseFee : Nat}
    (h : updateBaseFee state latestBlock timestamp = .ok (baseFee, state')) :
    latestBlock = .ok (some baseFee) ∧ state' = saveBaseFeePerGas state baseFee timestamp := by
  unfold updateBaseFee at h
  split at h
  · cases h
  · cases h
  · cases h
    exact ⟨rfl, rfl⟩

/-- The queues that reachable states keep non-empty. -/
structure QueuesNonEmpty (config : GasPriceConfig) (state : GasPriceManagerState) : Prop where
  maxFee : state.queueMaxFeePerGas ≠ []
  maxPriorityFee : state.queueMaxPriorityFeePerGas ≠ []
  baseFee : config.legacyTransactions = false → state.queueBaseFeePerGas ≠ []

theorem queuesNonEmpty_apply (hs : QueuesNonEmpty config state) (event : GasPriceEvent) :
    QueuesNonEmpty config (state.apply event) := by
  cases event with
  | gasPriceSaved gasPrice timestamp =>
      cases h : updateGasPrice state gasPrice timestamp with
      | error _ => simpa [GasPriceManagerState.apply, h] using hs
      | ok result =>
          obtain ⟨quoted, state'⟩ := result
          obtain ⟨-, rfl⟩ := updateGasPrice_eq_ok h
          simp only [GasPriceManagerState.apply, h]
          exact ⟨saveToQueue_ne_nil _ _ _, saveToQueue_ne_nil _ _ _, hs.baseFee⟩
  | baseFeeSaved latestBlock timestamp =>
      cases h : updateBaseFee state latestBlock timestamp with
      | error _ => simpa [GasPriceManagerState.apply, h] using hs
      | ok result =>
          obtain ⟨baseFee, state'⟩ := result
          obtain ⟨-, rfl⟩ := updateBaseFee_eq_ok h
          simp only [GasPriceManagerState.apply, h]
          exact ⟨hs.maxFee, hs.maxPriorityFee, fun _ => saveToQueue_ne_nil _ _ _⟩

theorem queuesNonEmpty_create {gasPrice : Except String GasPriceParameters}
    {latestBlock : Except String (Option Nat)} {t t' : Nat}
    (h : createGasPriceManager config gasPrice latestBlock t t' = .ok state) : QueuesNonEmpty config state := by
  unfold createGasPriceManager at h
  cases hgas : updateGasPrice (.init config.gasPriceExpiry) gasPrice t with
  | error e => simp [hgas, bind, Except.bind] at h
  | ok result =>
      obtain ⟨quoted, created⟩ := result
      obtain ⟨-, rfl⟩ := updateGasPrice_eq_ok hgas
      simp only [hgas, bind, Except.bind] at h
      split at h
      · rename_i hlegacy
        cases hbase : updateBaseFee (saveMaxPriorityFeePerGas
            (saveMaxFeePerGas (.init config.gasPriceExpiry) quoted.maxFeePerGas t)
            quoted.maxPriorityFeePerGas t) latestBlock t' with
        | error e => simp [hbase] at h
        | ok result =>
            obtain ⟨baseFee, based⟩ := result
            obtain ⟨-, rfl⟩ := updateBaseFee_eq_ok hbase
            simp only [hbase] at h
            cases h
            exact ⟨by simp [saveToQueue_ne_nil], by simp [saveToQueue_ne_nil],
              fun _ => by simp [saveToQueue_ne_nil]⟩
      · rename_i hlegacy
        cases h
        exact ⟨by simp [saveToQueue_ne_nil], by simp [saveToQueue_ne_nil], fun h' => absurd h' hlegacy⟩

theorem Reachable.queuesNonEmpty (hr : Reachable config state) : QueuesNonEmpty config state := by
  induction hr with
  | create _ _ _ _ h => exact queuesNonEmpty_create h
  | step event _ _ ih => exact queuesNonEmpty_apply ih event

/-! ## The readers -/

section Readers

variable (config)

theorem getGasPrice_ne_typeError (hs : QueuesNonEmpty config state) (refresh : Refresh) :
    getGasPrice config state refresh ≠ .error .typeError := by
  unfold getGasPrice updateGasPrice
  split
  · split <;> simp
  · obtain ⟨priority, hpriority⟩ := Option.isSome_iff_exists.1
      (List.getLast?_isSome.2 hs.maxPriorityFee)
    obtain ⟨max, hmax⟩ := Option.isSome_iff_exists.1 (List.getLast?_isSome.2 hs.maxFee)
    simp [hpriority, hmax]

theorem getBaseFee_ne_typeError (hs : QueuesNonEmpty config state) (refresh : Refresh) :
    getBaseFee config state refresh ≠ .error .typeError := by
  unfold getBaseFee updateBaseFee
  split
  · simp
  · split
    · split <;> simp
    · rename_i hlegacy _
      obtain ⟨last, hlast⟩ := Option.isSome_iff_exists.1
        (List.getLast?_isSome.2 (hs.baseFee (by simpa using hlegacy)))
      simp [hlast]

theorem getMinMaxFeePerGas_ne_typeError (hs : QueuesNonEmpty config state) (refresh : Refresh) :
    getMinMaxFeePerGas config state refresh ≠ .error .typeError := by
  obtain ⟨first, rest, hqueue⟩ := List.exists_cons_of_ne_nil hs.maxFee
  simp [getMinMaxFeePerGas, hqueue, pure, Except.pure, bind, Except.bind]

theorem getMinMaxPriorityFeePerGas_ne_typeError (hs : QueuesNonEmpty config state)
    (refresh : Refresh) : getMinMaxPriorityFeePerGas config state refresh ≠ .error .typeError := by
  obtain ⟨first, rest, hqueue⟩ := List.exists_cons_of_ne_nil hs.maxPriorityFee
  simp [getMinMaxPriorityFeePerGas, hqueue, pure, Except.pure, bind, Except.bind]

theorem getMaxBaseFeePerGas_ne_typeError (hs : QueuesNonEmpty config state) (refresh : Refresh) :
    getMaxBaseFeePerGas config state refresh ≠ .error .typeError := by
  cases hqueue : state.queueBaseFeePerGas with
  | cons first rest => simp [getMaxBaseFeePerGas, hqueue, pure, Except.pure, bind, Except.bind]
  | nil =>
      have hlegacy : config.legacyTransactions = true := by
        by_contra h
        exact hs.baseFee (by simpa using h) hqueue
      simp [getMaxBaseFeePerGas, getBaseFee, hqueue, hlegacy, bind, Except.bind, Functor.map,
        Except.map]

end Readers

/-- In every reachable state, in either refresh mode, the fee queues are
non-empty, the base-fee queue is non-empty unless legacy, and no reader indexes
an empty queue. -/
theorem readers_no_typeError (hr : Reachable config state) (refresh : Refresh) :
    (state.queueMaxFeePerGas ≠ [] ∧ state.queueMaxPriorityFeePerGas ≠ [] ∧
        (config.legacyTransactions = false → state.queueBaseFeePerGas ≠ [])) ∧
      getGasPrice config state refresh ≠ .error .typeError ∧
      getBaseFee config state refresh ≠ .error .typeError ∧
      getMaxBaseFeePerGas config state refresh ≠ .error .typeError ∧
      getMinMaxFeePerGas config state refresh ≠ .error .typeError ∧
      getMinMaxPriorityFeePerGas config state refresh ≠ .error .typeError := by
  have hs := hr.queuesNonEmpty
  exact ⟨⟨hs.maxFee, hs.maxPriorityFee, hs.baseFee⟩, getGasPrice_ne_typeError config hs refresh,
    getBaseFee_ne_typeError config hs refresh, getMaxBaseFeePerGas_ne_typeError config hs refresh,
    getMinMaxFeePerGas_ne_typeError config hs refresh,
    getMinMaxPriorityFeePerGas_ne_typeError config hs refresh⟩

/-- The state created from the pair `(10, 5)` and base fee `1` at `0`. -/
theorem readers_no_typeError_created :
    let config : GasPriceConfig := ⟨10, 1, false, ""⟩
    let created : GasPriceManagerState := ⟨10, [⟨0, 1⟩], [⟨0, 10⟩], [⟨0, 5⟩]⟩
    let refresh : Refresh := ⟨.error "", .error "", 0⟩
    Reachable config created ∧
      (created.queueMaxFeePerGas ≠ [] ∧ created.queueMaxPriorityFeePerGas ≠ [] ∧
          (config.legacyTransactions = false → created.queueBaseFeePerGas ≠ [])) ∧
        getGasPrice config created refresh ≠ .error .typeError ∧
        getBaseFee config created refresh ≠ .error .typeError ∧
        getMaxBaseFeePerGas config created refresh ≠ .error .typeError ∧
        getMinMaxFeePerGas config created refresh ≠ .error .typeError ∧
        getMinMaxPriorityFeePerGas config created refresh ≠ .error .typeError :=
  have hr : Reachable ⟨10, 1, false, ""⟩ ⟨10, [⟨0, 1⟩], [⟨0, 10⟩], [⟨0, 5⟩]⟩ :=
    .create (.ok ⟨10, 5⟩) (.ok (some 1)) 0 0 rfl
  ⟨hr, readers_no_typeError hr ⟨.error "", .error "", 0⟩⟩

/-! ## The cached pair -/

/-- With a positive refresh interval, a creation at `0` with the pair `(10, 5)`
and refreshes `(8, 5)` at `500` and `(20, 20)` at `1200`, each with its priority
fee at most its max fee, reach a state whose cached quote is `(8, 20)`. -/
theorem getGasPrice_inconsistent_pair :
    let config : GasPriceConfig := ⟨10, 1, false, ""⟩
    let created : GasPriceManagerState := ⟨10, [⟨0, 1⟩], [⟨0, 10⟩], [⟨0, 5⟩]⟩
    let refreshed := (created.apply (.gasPriceSaved (.ok ⟨8, 5⟩) 500)).apply
      (.gasPriceSaved (.ok ⟨20, 20⟩) 1200)
    createGasPriceManager config (.ok ⟨10, 5⟩) (.ok (some 1)) 0 0 = .ok created ∧
      Reachable config refreshed ∧
      getGasPrice config refreshed ⟨.error "", .error "", 0⟩ = .ok (⟨8, 20⟩, refreshed) :=
  ⟨rfl, .step _ (.step _ (.create (.ok ⟨10, 5⟩) (.ok (some 1)) 0 0 rfl) trivial) trivial, rfl⟩

end AltoBundler.GasPrice
