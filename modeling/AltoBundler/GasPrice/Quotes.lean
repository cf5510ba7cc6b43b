import AltoBundler.GasPrice.Validate
import AltoBundler.GasPrice.Estimate

/-!
# The chain's floor along runs of the manager

`Manager.lean` takes the pair of each refresh as an argument.  In the program
that pair is what `innerGetGasPrice` returns for the RPC answers of the
refresh, and with a bump of at least 100% its priority fee is at least the
chain's floor and at most its max fee (`innerGetGasPrice_floor`).  A history
queue only ever holds values that were saved into it (`mem_saveToQueue`), so
every entry of both fee queues stays at least the floor along every run, and so
does every quote of `getGasPrice`, in either refresh mode, even the pair of last
entries that no single refresh produced (`getGasPrice_at_least_chainFloor`).

The same argument with the floor 1 covers the Arbitrum manager, whose
`saveL1BaseFee` drops `0n`: `getMinL1BaseFee` is positive and at most
`getMaxL1BaseFee` after every sequence of saves (`getMinL1BaseFee_pos_le_max`).
-/

namespace AltoBundler.GasPrice

/-- The pair of a refresh comes from `innerGetGasPrice`, with that refresh's
RPC answers. -/
def GasPriceEvent.FromRpc (feeConfig : FeeConfig) : GasPriceEvent → Prop
  | .gasPriceSaved gasPrice _ => ∃ answers, gasPrice = innerGetGasPrice feeConfig answers
  | .baseFeeSaved _ _ => True

/-- Every entry of `queue` is at least `floor`. -/
def AtLeast (floor : Nat) (queue : List QueueEntry) : Prop :=
  ∀ entry ∈ queue, floor ≤ entry.value

variable {slice maxQueueSize floor : Nat}

theorem AtLeast.saveToQueue {queue : List QueueEntry} (h : AtLeast floor queue) {value : Nat}
    (hvalue : floor ≤ value) (timestamp : Nat) :
    AtLeast floor (saveToQueue slice maxQueueSize queue value timestamp) := fun entry hentry =>
  (mem_saveToQueue hentry).elim (h entry) fun heq => heq ▸ hvalue

section Floor

variable (feeConfig : FeeConfig) (hbump : 100 ≤ feeConfig.gasPriceBump)
include hbump

/-- The pair of a refresh: its priority fee is at least the floor and at most
its max fee. -/
theorem innerGetGasPrice_floor {answers : RpcAnswers} {gasPrice : GasPriceParameters}
    (h : innerGetGasPrice feeConfig answers = .ok gasPrice) :
    chainFloor feeConfig.chainId ≤ gasPrice.maxPriorityFeePerGas ∧
      gasPrice.maxPriorityFeePerGas ≤ gasPrice.maxFeePerGas := by
  rw [innerGetGasPrice_eq_bump feeConfig hbump] at h
  cases hestimate : pathEstimate feeConfig answers with
  | error => simp [hestimate, Except.map] at h
  | ok estimate =>
      obtain rfl : bumpTheGasPrice feeConfig estimate = gasPrice := by
        simpa [hestimate, Except.map] using h
      obtain ⟨hle, -, -, hfloor, -⟩ := bumpTheGasPrice_spec feeConfig hbump estimate
      exact ⟨hfloor, hle⟩

/-- A refresh from `innerGetGasPrice` keeps a fee queue at least the floor. -/
theorem SavesFee.atLeast_apply {queue : GasPriceManagerState → List QueueEntry}
    {fee : GasPriceParameters → Nat} (h : SavesFee queue fee)
    (hfee : ∀ gasPrice : GasPriceParameters, chainFloor feeConfig.chainId ≤ gasPrice.maxPriorityFeePerGas →
      gasPrice.maxPriorityFeePerGas ≤ gasPrice.maxFeePerGas → chainFloor feeConfig.chainId ≤ fee gasPrice)
    {state : GasPriceManagerState} (hs : AtLeast (chainFloor feeConfig.chainId) (queue state))
    {event : GasPriceEvent} (hevent : event.FromRpc feeConfig) :
    AtLeast (chainFloor feeConfig.chainId) (queue (state.apply event)) := by
  cases event with
  | gasPriceSaved gasPrice timestamp =>
      cases gasPrice with
      | error => rwa [h.failed]
      | ok gasPrice =>
          obtain ⟨answers, hanswers⟩ := hevent
          obtain ⟨hfloor, hle⟩ := innerGetGasPrice_floor feeConfig hbump hanswers.symm
          rw [h.saved]
          exact hs.saveToQueue (hfee gasPrice hfloor hle) timestamp
  | baseFeeSaved => rwa [h.baseFee]

theorem SavesFee.atLeast_run {queue : GasPriceManagerState → List QueueEntry}
    {fee : GasPriceParameters → Nat} (h : SavesFee queue fee)
    (hfee : ∀ gasPrice : GasPriceParameters, chainFloor feeConfig.chainId ≤ gasPrice.maxPriorityFeePerGas →
      gasPrice.maxPriorityFeePerGas ≤ gasPrice.maxFeePerGas → chainFloor feeConfig.chainId ≤ fee gasPrice) :
    ∀ (events : List GasPriceEvent) {state : GasPriceManagerState},
      AtLeast (chainFloor feeConfig.chainId) (queue state) → (∀ event ∈ events, event.FromRpc feeConfig) →
      AtLeast (chainFloor feeConfig.chainId) (queue (state.run events))
  | [], _, hs, _ => hs
  | event :: events, _, hs, hevents =>
      h.atLeast_run hfee events (h.atLeast_apply feeConfig hbump hfee hs (hevents event (.head _)))
        fun event' hevent' => hevents event' (.tail _ hevent')

end Floor

/-- The fee queues of a created manager hold the first refresh's pair. -/
theorem createGasPriceManager_feeQueues {config : GasPriceConfig}
    {gasPrice : Except String GasPriceParameters} {latestBlock : Except String (Option Nat)} {t t' : Nat}
    {state : GasPriceManagerState}
    (h : createGasPriceManager config gasPrice latestBlock t t' = .ok state) :
    ∃ quoted, gasPrice = .ok quoted ∧
      state.queueMaxFeePerGas = saveToQueue 1000 config.gasPriceExpiry [] quoted.maxFeePerGas t ∧
      state.queueMaxPriorityFeePerGas =
        saveToQueue 1000 config.gasPriceExpiry [] quoted.maxPriorityFeePerGas t := by
  unfold createGasPriceManager at h
  cases hgas : updateGasPrice (.init config.gasPriceExpiry) gasPrice t with
  | error e => simp [hgas, bind, Except.bind] at h
  | ok result =>
      obtain ⟨quoted, created⟩ := result
      obtain ⟨hquoted, rfl⟩ := updateGasPrice_eq_ok hgas
      refine ⟨quoted, hquoted, ?_⟩
      simp only [hgas, bind, Except.bind] at h
      split at h
      · cases hbase : updateBaseFee (saveMaxPriorityFeePerGas
            (saveMaxFeePerGas (.init config.gasPriceExpiry) quoted.maxFeePerGas t)
            quoted.maxPriorityFeePerGas t) latestBlock t' with
        | error e => simp [hbase] at h
        | ok result =>
            obtain ⟨baseFee, based⟩ := result
            obtain ⟨-, rfl⟩ := updateBaseFee_eq_ok hbase
            simp only [hbase, pure, Except.pure, Except.ok.injEq] at h
            subst h
            exact ⟨rfl, rfl⟩
      · cases h
        exact ⟨rfl, rfl⟩

/-- For every manager whose refreshes, its first one included, compute their
pair with `innerGetGasPrice` and a bump of at least 100%, after every run of
refreshes: every entry of the max-fee and priority-fee queues is at least the
chain's floor (31 gwei on Polygon, 1 gwei on Mumbai, 5 gwei on DFK, 1.5 gwei on
Avalanche), and so is each field of every quote of `getGasPrice` in either
refresh mode, the cached pair of last entries included. -/
theorem getGasPrice_at_least_chainFloor (feeConfig : FeeConfig) (hbump : 100 ≤ feeConfig.gasPriceBump)
    (config : GasPriceConfig) (answers : RpcAnswers) (latestBlock : Except String (Option Nat))
    (gasPriceTimestamp baseFeeTimestamp : Nat) {state : GasPriceManagerState}
    (hcreate : createGasPriceManager config (innerGetGasPrice feeConfig answers) latestBlock
      gasPriceTimestamp baseFeeTimestamp = .ok state)
    (events : List GasPriceEvent) (hevents : ∀ event ∈ events, event.FromRpc feeConfig) :
    let s := state.run events
    (∀ entry ∈ s.queueMaxFeePerGas, chainFloor feeConfig.chainId ≤ entry.value) ∧
      (∀ entry ∈ s.queueMaxPriorityFeePerGas, chainFloor feeConfig.chainId ≤ entry.value) ∧
      ∀ (refresh : Refresh) (quoted : GasPriceParameters) (quotedState : GasPriceManagerState),
        (∃ answers', refresh.gasPrice = innerGetGasPrice feeConfig answers') →
        getGasPrice config s refresh = .ok (quoted, quotedState) →
        chainFloor feeConfig.chainId ≤ quoted.maxFeePerGas ∧
          chainFloor feeConfig.chainId ≤ quoted.maxPriorityFeePerGas := by
  obtain ⟨first, hfirst, hfee, hpriority⟩ := createGasPriceManager_feeQueues hcreate
  obtain ⟨hfloor, hle⟩ := innerGetGasPrice_floor feeConfig hbump hfirst
  have hempty : AtLeast (chainFloor feeConfig.chainId) [] := fun _ h => absurd h (List.not_mem_nil _)
  have hfeeRun := savesFee_maxFeePerGas.atLeast_run feeConfig hbump (fun _ hf hle => hf.trans hle)
    events (hfee ▸ hempty.saveToQueue (hfloor.trans hle) _) hevents
  have hpriorityRun := savesFee_maxPriorityFeePerGas.atLeast_run feeConfig hbump (fun _ hf _ => hf)
    events (hpriority ▸ hempty.saveToQueue hfloor _) hevents
  refine ⟨hfeeRun, hpriorityRun, fun refresh quoted quotedState ⟨answers', hrefresh⟩ hquote => ?_⟩
  unfold getGasPrice at hquote
  split at hquote
  · -- on demand: the quote is the pair of a fresh refresh
    obtain ⟨hgas, -⟩ := updateGasPrice_eq_ok hquote
    obtain ⟨hfloor', hle'⟩ := innerGetGasPrice_floor feeConfig hbump (hrefresh.symm.trans hgas)
    exact ⟨hfloor'.trans hle', hfloor'⟩
  · -- cached: the last entries of the two queues
    split at hquote
    · rename_i priority max hpriorityLast hmaxLast
      cases hquote
      exact ⟨hfeeRun max (List.mem_of_mem_getLast? hmaxLast),
        hpriorityRun priority (List.mem_of_mem_getLast? hpriorityLast)⟩
    · cases hquote

/-- A Polygon manager in on-demand mode whose gas station quotes a 2 gwei tip:
the tip is raised to the 31 gwei floor at creation and at a later refresh. -/
theorem getGasPrice_at_least_chainFloor_polygon :
    let feeConfig : FeeConfig := ⟨polygonId, false, 100⟩
    let config : GasPriceConfig := ⟨10, 0, false, "polygon"⟩
    let answers : RpcAnswers :=
      ⟨some ⟨40 * 10 ^ 9, 2 * 10 ^ 9⟩, .error "", .error "", .error "", .error "", .error ""⟩
    let state : GasPriceManagerState := ⟨10, [⟨0, 1⟩], [⟨0, 40 * 10 ^ 9⟩], [⟨0, 31 * 10 ^ 9⟩]⟩
    let events := [GasPriceEvent.gasPriceSaved (innerGetGasPrice feeConfig answers) 2000]
    100 ≤ feeConfig.gasPriceBump ∧
      createGasPriceManager config (innerGetGasPrice feeConfig answers) (.ok (some 1)) 0 0 = .ok state ∧
      (∀ event ∈ events, event.FromRpc feeConfig) ∧
      let s := state.run events
      (∀ entry ∈ s.queueMaxFeePerGas, chainFloor feeConfig.chainId ≤ entry.value) ∧
        (∀ entry ∈ s.queueMaxPriorityFeePerGas, chainFloor feeConfig.chainId ≤ entry.value) ∧
        ∀ (refresh : Refresh) (quoted : GasPriceParameters) (quotedState : GasPriceManagerState),
          (∃ answers', refresh.gasPrice = innerGetGasPrice feeConfig answers') →
          getGasPrice config s refresh = .ok (quoted, quotedState) →
          chainFloor feeConfig.chainId ≤ quoted.maxFeePerGas ∧
            chainFloor feeConfig.chainId ≤ quoted.maxPriorityFeePerGas :=
  have hcreate : createGasPriceManager ⟨10, 0, false, "polygon"⟩
      (innerGetGasPrice ⟨polygonId, false, 100⟩
        ⟨some ⟨40 * 10 ^ 9, 2 * 10 ^ 9⟩, .error "", .error "", .error "", .error "", .error ""⟩)
      (.ok (some 1)) 0 0 = .ok ⟨10, [⟨0, 1⟩], [⟨0, 40 * 10 ^ 9⟩], [⟨0, 31 * 10 ^ 9⟩]⟩ := rfl
  have hevents : ∀ event ∈ [GasPriceEvent.gasPriceSaved (innerGetGasPrice ⟨polygonId, false, 100⟩
      ⟨some ⟨40 * 10 ^ 9, 2 * 10 ^ 9⟩, .error "", .error "", .error "", .error "", .error ""⟩) 2000],
      event.FromRpc ⟨polygonId, false, 100⟩ := fun _ h => List.mem_singleton.1 h ▸ ⟨_, rfl⟩
  ⟨by decide, hcreate, hevents,
    getGasPrice_at_least_chainFloor _ (by decide) _ _ _ _ _ hcreate _ hevents⟩

/-! ## The L1 base-fee bounds of the Arbitrum manager

`saveL1BaseFee` drops `0n`, so every entry of `queueL1BaseFee` is at least 1
and the least of them, which `getMinL1BaseFee` reduces to, is positive. -/

theorem atLeast_saveL1BaseFee {arbitrum : ArbitrumManagerState} (h : AtLeast 1 arbitrum.queueL1BaseFee)
    (baseFee timestamp : Nat) : AtLeast 1 (saveL1BaseFee arbitrum baseFee timestamp).queueL1BaseFee := by
  unfold saveL1BaseFee
  split
  · exact h
  · exact h.saveToQueue (by omega) timestamp

theorem atLeast_saveEach_saveL1BaseFee : ∀ (insertions : List QueueEntry) {arbitrum : ArbitrumManagerState},
    AtLeast 1 arbitrum.queueL1BaseFee → AtLeast 1 (saveEach saveL1BaseFee arbitrum insertions).queueL1BaseFee
  | [], _, h => h
  | entry :: insertions, _, h =>
      atLeast_saveEach_saveL1BaseFee insertions (atLeast_saveL1BaseFee h entry.value entry.timestamp)

theorem AtLeast.le_queueMin {first : QueueEntry} {rest : List QueueEntry}
    (h : AtLeast floor (first :: rest)) : floor ≤ queueMin first rest := by
  have key : ∀ (entries : List QueueEntry) (acc : Nat), floor ≤ acc → AtLeast floor entries →
      floor ≤ entries.foldl (fun acc cur => min cur.value acc) acc := by
    intro entries
    induction entries with
    | nil => exact fun _ hacc _ => hacc
    | cons head tail ih =>
        exact fun acc hacc hentries => ih _ (le_min (hentries head (List.mem_cons_self _ _)) hacc)
          fun entry hentry => hentries entry (List.mem_cons_of_mem _ hentry)
  exact key _ _ (h first (List.mem_cons_self _ _)) h

/-- For every queue size and every sequence of `saveL1BaseFee` calls, zeros,
repeated timestamps and clock steps back included, `getMinL1BaseFee` is
positive and at most `getMaxL1BaseFee`: with an empty queue the two defaults
`1n` and `maxUint128`, and otherwise the least and the greatest entry. -/
theorem getMinL1BaseFee_pos_le_max (maxQueueSize : Nat) (insertions : List QueueEntry) :
    let arbitrum := saveEach saveL1BaseFee (createArbitrumManager maxQueueSize) insertions
    1 ≤ getMinL1BaseFee arbitrum ∧ getMinL1BaseFee arbitrum ≤ getMaxL1BaseFee arbitrum := by
  intro arbitrum
  have hpos : AtLeast 1 arbitrum.queueL1BaseFee :=
    atLeast_saveEach_saveL1BaseFee insertions fun _ hentry => absurd hentry (List.not_mem_nil _)
  unfold getMinL1BaseFee getMaxL1BaseFee
  split
  · exact ⟨le_rfl, by decide⟩
  · rename_i first rest hqueue
    have hfirst : first ∈ first :: rest := List.mem_cons_self _ _
    exact ⟨(hqueue ▸ hpos).le_queueMin,
      (queueMin_le first rest first hfirst).trans (le_queueMax first rest first hfirst)⟩

end AltoBundler.GasPrice
