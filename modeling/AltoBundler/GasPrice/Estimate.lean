import AltoBundler.GasPrice.Manager

/-!
# The fee computation of a refresh

`innerGetGasPrice` computes the pair that a refresh saves.  It takes the first
of three sources that answers: the Polygon gas station (on Polygon and
Mumbai only), the legacy estimator with `eth_gasPrice` as fallback (with
`legacyTransactions`), and otherwise the EIP-1559 estimator, whose missing
fields come from `eth_feeHistory` and from `getNextBaseFee`.  The estimate is
then bumped by `bumpTheGasPrice`: the priority fee is raised to the chain's
default, the max fee to the priority fee, both are multiplied by
`gasPriceBump / 100`, and Celo, DFK and Avalanche override the result.

As in `Manager.lean` the RPC client is outside the model: each awaited call is
a field of `RpcAnswers`.  Fee values are unsigned, so natural numbers, except
in `getNextBaseFee`, which computes with the signed bigints of the source
(`Int`, with `bigIntDiv` for the bigint `/`, which truncates toward zero).

## Results

* `innerGetGasPrice_bounds`: with `gasPriceBump ≥ 100`, whenever the chosen
  path yields its fee data, `innerGetGasPrice` returns the bumped estimate
  (`innerGetGasPrice_eq_bump`), whose priority fee is at most its max fee, whose
  fields are at least the estimate's and the priority fee at least the chain's
  floor, with equal fields on Celo.
* `getNextBaseFee_eq` computes what `getNextBaseFee` returns.  At and above
  the gas target it is the EIP-1559 rule, but below it the source subtracts the
  truncated quotient of a negative product, so it adds the decrease instead
  (`getNextBaseFee_mirrors_eip1559`, `getNextBaseFee_below_target`).
* `estimateGasPrice_without_estimator`: when the estimator rejects, the
  fee-history fallback is capped at `0n`, so its rewards never reach the result,
  whose priority fee is 1/200 of the next base fee.
-/

namespace AltoBundler.GasPrice

/-! ## Chains and answers -/

/-- The chain ids that the fee computation tests: `ChainId.Polygon` and
`ChainId.Mumbai` of the source, and viem's `celo`, `celoAlfajores`, `dfk` and
`avalanche`. -/
def polygonId : Nat := 137
def polygonMumbaiId : Nat := 80001
def celoId : Nat := 42220
def celoAlfajoresId : Nat := 44787
def dfkId : Nat := 53935
def avalancheId : Nat := 43114

/-- `parseGwei("31")`. -/
def minPolygonGasPrice : Nat := 31 * 10 ^ 9

/-- `parseGwei("1")`. -/
def minMumbaiGasPrice : Nat := 10 ^ 9

/-- The fields of `AltoConfig` that the fee computation reads. -/
structure FeeConfig where
  /-- `config.publicClient.chain.id`. -/
  chainId : Nat
  legacyTransactions : Bool
  gasPriceBump : Nat
  deriving DecidableEq, Repr

/-- The fields of the latest block that `getNextBaseFee` reads. -/
structure Block where
  /-- `null` before London. -/
  baseFeePerGas : Option Nat
  gasUsed : Nat
  gasLimit : Nat
  deriving DecidableEq, Repr

/-- The answers of the RPC client and the gas station to one fee computation;
each is read only on the path that awaits it. -/
structure RpcAnswers where
  /-- `gasStationResult.parse(data).fast`, `none` when the fetch or the parse threw. -/
  gasStation : Option GasPriceParameters
  /-- The `gasPrice` of `estimateFeesPerGas({ type: "legacy" })`, or its rejection. -/
  legacyFees : Except String (Option Nat)
  /-- `getGasPrice()`, that is `eth_gasPrice`. -/
  gasPrice : Except String Nat
  /-- The `maxFeePerGas` and `maxPriorityFeePerGas` of `estimateFeesPerGas()`, or its rejection. -/
  fees : Except String (Option Nat × Option Nat)
  /-- The `reward` of `getFeeHistory(...)`, `none` when it is `undefined` or `null`. -/
  feeHistory : Except String (Option (List (List Nat)))
  /-- `getBlock({ blockTag: "latest" })`. -/
  latestBlock : Except String Block

/-! ## The bump -/

/-- `getDefaultGasFee`. -/
def getDefaultGasFee (config : FeeConfig) : Nat :=
  if config.chainId = polygonId then minPolygonGasPrice
  else if config.chainId = polygonMumbaiId then minMumbaiGasPrice
  else 0

/-- `bumpTheGasPrice`; `maxBigInt` is `max`. -/
def bumpTheGasPrice (config : FeeConfig) (gasPrice : GasPriceParameters) : GasPriceParameters :=
  let bumpAmount := config.gasPriceBump
  let maxPriorityFeePerGas := max gasPrice.maxPriorityFeePerGas (getDefaultGasFee config)
  let maxFeePerGas := max gasPrice.maxFeePerGas maxPriorityFeePerGas
  let result : GasPriceParameters :=
    ⟨maxFeePerGas * bumpAmount / 100, maxPriorityFeePerGas * bumpAmount / 100⟩
  if config.chainId = celoId ∨ config.chainId = celoAlfajoresId then
    let maxFee := max result.maxFeePerGas result.maxPriorityFeePerGas
    ⟨maxFee, maxFee⟩
  else if config.chainId = dfkId then
    ⟨max 5000000000 result.maxFeePerGas, max 5000000000 result.maxPriorityFeePerGas⟩
  else if config.chainId = avalancheId then
    -- `parseGwei("1.5")`
    ⟨max 1500000000 result.maxFeePerGas, max 1500000000 result.maxPriorityFeePerGas⟩
  else result

/-! ## The estimates -/

/-- `getLegacyTransactionGasPrice`: an estimator that rejects or has no
`gasPrice` falls back to `eth_gasPrice`, whose rejection is rethrown. -/
def getLegacyTransactionGasPrice (answers : RpcAnswers) : Except String GasPriceParameters := do
  let gasPrice ← match answers.legacyFees with
    | .ok (some gasPrice) => pure gasPrice
    | _ => answers.gasPrice
  pure ⟨gasPrice, gasPrice⟩

/-- `getFallBackMaxPriorityFeePerGas`: the mean of the ten blocks' 20th
percentile rewards, read as `cur[0]` (an empty entry makes `undefined + acc`
throw), capped at `gasPrice`. -/
def getFallBackMaxPriorityFeePerGas (answers : RpcAnswers) (gasPrice : Nat) : Except String Nat := do
  match ← answers.feeHistory with
  | none => pure gasPrice
  | some reward =>
      let total ← reward.foldlM (fun acc cur => match cur.head? with
        | some reward => pure (reward + acc)
        | none => throw "TypeError: Cannot mix BigInt and other types") 0
      pure (min (total / 10) gasPrice)

/-- The bigint `/`: truncation toward zero, and a `RangeError` for a zero divisor. -/
def bigIntDiv (a b : Int) : Except String Int :=
  if b = 0 then .error "RangeError: Division by zero" else .ok (a.tdiv b)

/-- `block.baseFeePerGas || (await getGasPrice())`: a base fee of `0n` is falsy
too, and also falls back to `eth_gasPrice`. -/
def baseFeeOrGasPrice (block : Block) (answers : RpcAnswers) : Except String Nat :=
  match block.baseFeePerGas with
  | some baseFeePerGas => if baseFeePerGas = 0 then answers.gasPrice else pure baseFeePerGas
  | none => answers.gasPrice

/-- `getNextBaseFee`.  Below the target `gasUsedDelta` is negative. -/
def getNextBaseFee (answers : RpcAnswers) : Except String Int := do
  let block ← answers.latestBlock
  let currentBaseFeePerGas : Int ← baseFeeOrGasPrice block answers
  let currentGasUsed : Int := block.gasUsed
  let gasTarget : Int := (block.gasLimit / 2 : Nat)
  if currentGasUsed = gasTarget then pure currentBaseFeePerGas
  else if currentGasUsed > gasTarget then do
    let gasUsedDelta := currentGasUsed - gasTarget
    let baseFeePerGasDelta :=
      max (← bigIntDiv (← bigIntDiv (currentBaseFeePerGas * gasUsedDelta) gasTarget) 8) 1
    pure (currentBaseFeePerGas + baseFeePerGasDelta)
  else do
    let gasUsedDelta := currentGasUsed - gasTarget
    let baseFeePerGasDelta ← bigIntDiv (← bigIntDiv (currentBaseFeePerGas * gasUsedDelta) gasTarget) 8
    pure (currentBaseFeePerGas - baseFeePerGasDelta)

/-- `estimateGasPrice`: a rejected estimator leaves both fields undefined; a
missing priority fee comes from the fee history, a missing max fee is the next
base fee plus the priority fee (`getNextBaseFee` is never negative,
`getNextBaseFee_nonneg`, so `toNat` loses nothing), and a zero priority fee
becomes `maxFeePerGas / 200`. -/
def estimateGasPrice (answers : RpcAnswers) : Except String GasPriceParameters := do
  let (maxFeePerGas, maxPriorityFeePerGas) := match answers.fees with
    | .ok fees => fees
    | .error _ => (none, none)
  let maxPriorityFeePerGas ← match maxPriorityFeePerGas with
    | some maxPriorityFeePerGas => pure maxPriorityFeePerGas
    | none => getFallBackMaxPriorityFeePerGas answers (maxFeePerGas.getD 0)
  let maxFeePerGas ← match maxFeePerGas with
    | some maxFeePerGas => pure maxFeePerGas
    | none => do pure ((← getNextBaseFee answers) + maxPriorityFeePerGas).toNat
  let maxPriorityFeePerGas :=
    if maxPriorityFeePerGas = 0 then maxFeePerGas / 200 else maxPriorityFeePerGas
  pure ⟨maxFeePerGas, maxPriorityFeePerGas⟩

/-- The gas station is asked on Polygon and Mumbai only; a `null` estimate
falls through to the other sources. -/
def polygonEstimate (config : FeeConfig) (answers : RpcAnswers) : Option GasPriceParameters :=
  if config.chainId = polygonId ∨ config.chainId = polygonMumbaiId then answers.gasStation else none

/-- `innerGetGasPrice`: the bumped estimate, raised to the unbumped one, which
is `0n` on the gas-station and legacy paths. -/
def innerGetGasPrice (config : FeeConfig) (answers : RpcAnswers) : Except String GasPriceParameters :=
  let maxFeePerGas := 0
  let maxPriorityFeePerGas := 0
  match polygonEstimate config answers with
  | some polygonEstimate =>
      let gasPrice := bumpTheGasPrice config polygonEstimate
      .ok ⟨max gasPrice.maxFeePerGas maxFeePerGas, max gasPrice.maxPriorityFeePerGas maxPriorityFeePerGas⟩
  | none =>
      if config.legacyTransactions then do
        let gasPrice := bumpTheGasPrice config (← getLegacyTransactionGasPrice answers)
        pure ⟨max gasPrice.maxFeePerGas maxFeePerGas, max gasPrice.maxPriorityFeePerGas maxPriorityFeePerGas⟩
      else do
        let estimatedPrice ← estimateGasPrice answers
        let maxFeePerGas := estimatedPrice.maxFeePerGas
        let maxPriorityFeePerGas := estimatedPrice.maxPriorityFeePerGas
        let gasPrice := bumpTheGasPrice config ⟨maxFeePerGas, maxPriorityFeePerGas⟩
        pure ⟨max gasPrice.maxFeePerGas maxFeePerGas, max gasPrice.maxPriorityFeePerGas maxPriorityFeePerGas⟩

/-! ## The bumped estimate -/

/-- The floor of the priority fee that the spec names per chain: 31 gwei on
Polygon, 1 gwei on Mumbai, 5 gwei on DFK and 1.5 gwei on Avalanche. -/
def chainFloor (chainId : Nat) : Nat :=
  if chainId = polygonId then 31 * 10 ^ 9
  else if chainId = polygonMumbaiId then 10 ^ 9
  else if chainId = dfkId then 5 * 10 ^ 9
  else if chainId = avalancheId then 1500000000
  else 0

/-- The fee data of the path that `innerGetGasPrice` takes. -/
def pathEstimate (config : FeeConfig) (answers : RpcAnswers) : Except String GasPriceParameters :=
  match polygonEstimate config answers with
  | some polygonEstimate => .ok polygonEstimate
  | none => if config.legacyTransactions then getLegacyTransactionGasPrice answers else estimateGasPrice answers

theorem chainFloor_eq_default (config : FeeConfig) (hdfk : config.chainId ≠ dfkId)
    (havalanche : config.chainId ≠ avalancheId) : chainFloor config.chainId = getDefaultGasFee config := by
  simp [chainFloor, getDefaultGasFee, hdfk, havalanche, minPolygonGasPrice, minMumbaiGasPrice]

section Bump

variable (config : FeeConfig) (hbump : 100 ≤ config.gasPriceBump)
include hbump

theorem le_mul_bump_div (x : Nat) : x ≤ x * config.gasPriceBump / 100 :=
  (Nat.le_div_iff_mul_le (by decide)).2 (Nat.mul_le_mul_left x hbump)

/-- The fields of `result`, the multiplied fields before the chain overrides. -/
theorem bump_result (gasPrice : GasPriceParameters) :
    let maxPriorityFeePerGas := max gasPrice.maxPriorityFeePerGas (getDefaultGasFee config)
    let maxFeePerGas := max gasPrice.maxFeePerGas maxPriorityFeePerGas
    maxPriorityFeePerGas * config.gasPriceBump / 100 ≤ maxFeePerGas * config.gasPriceBump / 100 ∧
      gasPrice.maxFeePerGas ≤ maxFeePerGas * config.gasPriceBump / 100 ∧
      gasPrice.maxPriorityFeePerGas ≤ maxPriorityFeePerGas * config.gasPriceBump / 100 ∧
      getDefaultGasFee config ≤ maxPriorityFeePerGas * config.gasPriceBump / 100 := by
  intro maxPriorityFeePerGas maxFeePerGas
  have hpriority := le_mul_bump_div config hbump maxPriorityFeePerGas
  have hfee := le_mul_bump_div config hbump maxFeePerGas
  refine ⟨Nat.div_le_div_right (Nat.mul_le_mul_right _ (le_max_right _ _)), ?_, ?_, ?_⟩ <;> omega

/-- A bump at least 100% keeps the priority fee at most the max fee, raises
both fields, raises the priority fee to the chain's floor, and makes the fields
equal on Celo. -/
theorem bumpTheGasPrice_spec (gasPrice : GasPriceParameters) :
    (bumpTheGasPrice config gasPrice).maxPriorityFeePerGas ≤ (bumpTheGasPrice config gasPrice).maxFeePerGas ∧
      gasPrice.maxFeePerGas ≤ (bumpTheGasPrice config gasPrice).maxFeePerGas ∧
      gasPrice.maxPriorityFeePerGas ≤ (bumpTheGasPrice config gasPrice).maxPriorityFeePerGas ∧
      chainFloor config.chainId ≤ (bumpTheGasPrice config gasPrice).maxPriorityFeePerGas ∧
      (config.chainId = celoId ∨ config.chainId = celoAlfajoresId →
        (bumpTheGasPrice config gasPrice).maxFeePerGas = (bumpTheGasPrice config gasPrice).maxPriorityFeePerGas) := by
  obtain ⟨hle, hfee, hpriority, hdefault⟩ := bump_result config hbump gasPrice
  simp only [bumpTheGasPrice]
  generalize max gasPrice.maxPriorityFeePerGas (getDefaultGasFee config) * config.gasPriceBump / 100 = p
    at hle hpriority hdefault ⊢
  generalize max gasPrice.maxFeePerGas (max gasPrice.maxPriorityFeePerGas (getDefaultGasFee config)) *
    config.gasPriceBump / 100 = f at hle hfee ⊢
  split_ifs with hcelo hdfk havalanche
  · -- Celo: no floor, and both fields become the larger, the max fee
    have hfloor : chainFloor config.chainId = 0 := by
      rcases hcelo with h | h <;> simp [chainFloor, h, celoId, celoAlfajoresId, polygonId, polygonMumbaiId,
        dfkId, avalancheId]
    rw [max_eq_left hle]
    exact ⟨le_rfl, hfee, hpriority.trans hle, hfloor ▸ Nat.zero_le _, fun _ => rfl⟩
  · have hfloor : chainFloor config.chainId = 5000000000 := by
      simp [chainFloor, hdfk, dfkId, polygonId, polygonMumbaiId]
    exact ⟨max_le_max le_rfl hle, hfee.trans (le_max_right _ _), hpriority.trans (le_max_right _ _),
      hfloor ▸ le_max_left _ _, fun h => absurd h hcelo⟩
  · have hfloor : chainFloor config.chainId = 1500000000 := by
      simp [chainFloor, havalanche, avalancheId, polygonId, polygonMumbaiId, dfkId]
    exact ⟨max_le_max le_rfl hle, hfee.trans (le_max_right _ _), hpriority.trans (le_max_right _ _),
      hfloor ▸ le_max_left _ _, fun h => absurd h hcelo⟩
  · exact ⟨hle, hfee, hpriority, chainFloor_eq_default config hdfk havalanche ▸ hdefault,
      fun h => absurd h hcelo⟩

/-- With a bump at least 100%, the bumped estimate is at least the unbumped one,
so the final `maxBigInt`s return the bumped estimate on every path. -/
theorem innerGetGasPrice_eq_bump (answers : RpcAnswers) :
    innerGetGasPrice config answers = (pathEstimate config answers).map (bumpTheGasPrice config) := by
  unfold innerGetGasPrice pathEstimate
  cases polygonEstimate config answers with
  | some polygonEstimate => simp [Except.map]
  | none =>
      dsimp only
      split
      · cases getLegacyTransactionGasPrice answers <;> simp [Except.map, bind, Except.bind, pure, Except.pure]
      · cases estimateGasPrice answers with
        | error => rfl
        | ok estimatedPrice =>
            obtain ⟨-, hfee, hpriority, -⟩ := bumpTheGasPrice_spec config hbump estimatedPrice
            simp [Except.map, bind, Except.bind, pure, Except.pure, max_eq_left hfee, max_eq_left hpriority]

/-- For every chain and every bump of at least 100%, whenever the path that
`innerGetGasPrice` takes yields its fee data, it returns a pair whose priority
fee is at most its max fee, whose fields are at least those of the path's
estimate, whose priority fee is at least the chain's floor, and whose fields are
equal on Celo and Celo-Alfajores. -/
theorem innerGetGasPrice_bounds (answers : RpcAnswers) {estimate : GasPriceParameters}
    (hestimate : pathEstimate config answers = .ok estimate) :
    ∃ gasPrice, innerGetGasPrice config answers = .ok gasPrice ∧
      gasPrice.maxPriorityFeePerGas ≤ gasPrice.maxFeePerGas ∧
      estimate.maxFeePerGas ≤ gasPrice.maxFeePerGas ∧
      estimate.maxPriorityFeePerGas ≤ gasPrice.maxPriorityFeePerGas ∧
      chainFloor config.chainId ≤ gasPrice.maxPriorityFeePerGas ∧
      (config.chainId = celoId ∨ config.chainId = celoAlfajoresId →
        gasPrice.maxFeePerGas = gasPrice.maxPriorityFeePerGas) :=
  ⟨bumpTheGasPrice config estimate, by rw [innerGetGasPrice_eq_bump config hbump, hestimate]; rfl,
    bumpTheGasPrice_spec config hbump estimate⟩

end Bump

/-- A Celo refresh on the EIP-1559 path whose estimator has no max fee: the next
base fee at target, plus the priority fee, is bumped by 10% and both fields
are set to the larger one. -/
theorem innerGetGasPrice_bounds_celo :
    let config : FeeConfig := ⟨celoId, false, 110⟩
    let answers : RpcAnswers := ⟨none, .error "", .ok 7, .ok (none, some 2), .error "", .ok ⟨some 100, 10, 20⟩⟩
    let estimate : GasPriceParameters := ⟨102, 2⟩
    100 ≤ config.gasPriceBump ∧ pathEstimate config answers = .ok estimate ∧
      ∃ gasPrice, innerGetGasPrice config answers = .ok gasPrice ∧
        gasPrice.maxPriorityFeePerGas ≤ gasPrice.maxFeePerGas ∧
        estimate.maxFeePerGas ≤ gasPrice.maxFeePerGas ∧
        estimate.maxPriorityFeePerGas ≤ gasPrice.maxPriorityFeePerGas ∧
        chainFloor config.chainId ≤ gasPrice.maxPriorityFeePerGas ∧
        (config.chainId = celoId ∨ config.chainId = celoAlfajoresId →
          gasPrice.maxFeePerGas = gasPrice.maxPriorityFeePerGas) :=
  have hestimate : pathEstimate ⟨celoId, false, 110⟩
      ⟨none, .error "", .ok 7, .ok (none, some 2), .error "", .ok ⟨some 100, 10, 20⟩⟩ = .ok ⟨102, 2⟩ := rfl
  ⟨by decide, hestimate, innerGetGasPrice_bounds _ (by decide) _ hestimate⟩

/-! ## The next base fee -/

/-- The next-base-fee formula of the spec, with `T = L / 2`: `b` at target,
`b + max(b·(u − T)/T/8, 1)` above it and `b − b·(T − u)/T/8` below it. -/
def eip1559NextBaseFee (baseFee gasUsed gasLimit : Nat) : Nat :=
  let gasTarget := gasLimit / 2
  if gasUsed = gasTarget then baseFee
  else if gasTarget < gasUsed then baseFee + max (baseFee * (gasUsed - gasTarget) / gasTarget / 8) 1
  else baseFee - baseFee * (gasTarget - gasUsed) / gasTarget / 8

theorem bigIntDiv_natCast (m : Nat) {n : Nat} (hn : n ≠ 0) : bigIntDiv m n = .ok ↑(m / n) := by
  rw [bigIntDiv, if_neg (by exact_mod_cast hn), Int.ofNat_tdiv]

theorem bigIntDiv_neg_natCast (m : Nat) {n : Nat} (hn : n ≠ 0) : bigIntDiv (-↑m) n = .ok (-↑(m / n)) := by
  rw [bigIntDiv, if_neg (by exact_mod_cast hn), Int.neg_tdiv, Int.ofNat_tdiv]

variable {answers : RpcAnswers} {block : Block} {baseFee : Nat}

/-- What `getNextBaseFee` computes from the base fee it uses, for a positive gas
target: the EIP-1559 rule at and above the target, and below it the decrease
added, since the truncated quotient of `b · (u − T) < 0` is subtracted. -/
theorem getNextBaseFee_eq (hblock : answers.latestBlock = .ok block)
    (hbase : baseFeeOrGasPrice block answers = .ok baseFee) (htarget : 0 < block.gasLimit / 2) :
    getNextBaseFee answers = .ok ↑(
      let gasTarget := block.gasLimit / 2
      if block.gasUsed = gasTarget then baseFee
      else if gasTarget < block.gasUsed then
        baseFee + max (baseFee * (block.gasUsed - gasTarget) / gasTarget / 8) 1
      else baseFee + baseFee * (gasTarget - block.gasUsed) / gasTarget / 8) := by
  have hT : block.gasLimit / 2 ≠ 0 := Nat.pos_iff_ne_zero.1 htarget
  have h8 : (8 : Int) = ((8 : Nat) : Int) := rfl
  simp only [getNextBaseFee, hblock, hbase, bind, Except.bind, pure, Except.pure]
  rcases lt_trichotomy block.gasUsed (block.gasLimit / 2) with hbelow | hat | habove
  · -- the product `b · (u − T)` is negative, and its quotients are truncated toward zero
    have hdelta : (block.gasUsed : Int) - ↑(block.gasLimit / 2) = -↑(block.gasLimit / 2 - block.gasUsed) := by
      omega
    rw [if_neg (by omega), if_neg (by omega), hdelta, Int.mul_neg, ← Int.natCast_mul,
      bigIntDiv_neg_natCast _ hT]
    dsimp only
    rw [h8, bigIntDiv_neg_natCast _ (by decide)]
    simp only [if_neg hbelow.ne, if_neg (Nat.not_lt.2 hbelow.le), Int.sub_neg, Int.natCast_add]
  · rw [if_pos (congrArg Nat.cast hat), if_pos hat]
  · rw [if_neg (by omega), if_pos (by omega), ← Int.ofNat_sub habove.le, ← Int.natCast_mul,
      bigIntDiv_natCast _ hT]
    dsimp only
    rw [h8, bigIntDiv_natCast _ (by decide)]
    simp only [if_neg habove.ne', if_pos habove, Int.natCast_add]
    congr 1
    omega

/-- For every block with a non-zero base fee `b` and a positive gas target,
`getNextBaseFee` returns the spec's next base fee at and above the target, and
its mirror image `2b − next` below it, which is at least `b`. -/
theorem getNextBaseFee_mirrors_eip1559 (hblock : answers.latestBlock = .ok block)
    (hbase : block.baseFeePerGas = some baseFee) (hnonzero : baseFee ≠ 0) (htarget : 0 < block.gasLimit / 2) :
    (block.gasLimit / 2 ≤ block.gasUsed →
        getNextBaseFee answers = .ok ↑(eip1559NextBaseFee baseFee block.gasUsed block.gasLimit)) ∧
      (block.gasUsed < block.gasLimit / 2 →
        getNextBaseFee answers = .ok ↑(2 * baseFee - eip1559NextBaseFee baseFee block.gasUsed block.gasLimit)) := by
  have hused : baseFeeOrGasPrice block answers = .ok baseFee := by
    simp [baseFeeOrGasPrice, hbase, hnonzero, pure, Except.pure]
  -- the decrease below the target is at most the base fee
  have hdecrease : baseFee * (block.gasLimit / 2 - block.gasUsed) / (block.gasLimit / 2) / 8 ≤ baseFee :=
    (Nat.div_le_self _ _).trans (Nat.div_le_of_le_mul (by
      rw [Nat.mul_comm (block.gasLimit / 2)]; exact Nat.mul_le_mul_left _ (Nat.sub_le _ _)))
  rw [getNextBaseFee_eq hblock hused htarget]
  unfold eip1559NextBaseFee
  dsimp only
  constructor
  · intro hle
    split_ifs <;> first | rfl | omega
  · intro hlt
    simp only [if_neg (Nat.ne_of_lt hlt), if_neg (Nat.not_lt.2 hlt.le)]
    congr 2
    generalize baseFee * (block.gasLimit / 2 - block.gasUsed) / (block.gasLimit / 2) / 8 = decrease
      at hdecrease ⊢
    omega

/-- The empty block of `getNextBaseFee_below_target`. -/
theorem getNextBaseFee_mirrors_eip1559_empty_block :
    let answers : RpcAnswers :=
      ⟨none, .error "", .error "", .ok (none, some 1), .error "", .ok ⟨some 800, 0, 100⟩⟩
    let block : Block := ⟨some 800, 0, 100⟩
    answers.latestBlock = .ok block ∧ block.baseFeePerGas = some 800 ∧ (800 : Nat) ≠ 0 ∧ 0 < block.gasLimit / 2 ∧
      (block.gasLimit / 2 ≤ block.gasUsed →
          getNextBaseFee answers = .ok ↑(eip1559NextBaseFee 800 block.gasUsed block.gasLimit)) ∧
        (block.gasUsed < block.gasLimit / 2 →
          getNextBaseFee answers = .ok ↑(2 * 800 - eip1559NextBaseFee 800 block.gasUsed block.gasLimit)) :=
  ⟨rfl, rfl, by decide, by decide, getNextBaseFee_mirrors_eip1559 rfl rfl (by decide) (by decide)⟩

/-- The spec's first scenario of the below-target branch: a base fee of 800 and
an empty block of gas limit 100 (target 50).  The rule gives `800 − 100`; the
source gives `800 + 100`, and the fallback max fee of `estimateGasPrice` is
built on it. -/
theorem getNextBaseFee_below_target :
    let answers : RpcAnswers :=
      ⟨none, .error "", .error "", .ok (none, some 1), .error "", .ok ⟨some 800, 0, 100⟩⟩
    getNextBaseFee answers = .ok 900 ∧ eip1559NextBaseFee 800 0 100 = 700 ∧
      estimateGasPrice answers = .ok ⟨901, 1⟩ :=
  ⟨rfl, rfl, rfl⟩

theorem getNextBaseFee_nonneg {nextBaseFee : Int} (h : getNextBaseFee answers = .ok nextBaseFee) :
    0 ≤ nextBaseFee := by
  cases hblock : answers.latestBlock with
  | error => simp [getNextBaseFee, hblock, bind, Except.bind] at h
  | ok block =>
      cases hbase : baseFeeOrGasPrice block answers with
      | error => simp [getNextBaseFee, hblock, hbase, bind, Except.bind] at h
      | ok baseFee =>
          rcases Nat.eq_zero_or_pos (block.gasLimit / 2) with hzero | htarget
          · -- with a zero target only an empty block returns, with the base fee
            simp only [getNextBaseFee, hblock, hbase, hzero, bind, Except.bind, pure, Except.pure, bigIntDiv,
              Int.natCast_zero, if_true] at h
            split_ifs at h
            cases h
            exact Int.ofNat_nonneg _
          · rw [getNextBaseFee_eq hblock hbase htarget] at h
            cases h
            exact Int.ofNat_nonneg _

/-! ## The fallbacks of `estimateGasPrice` -/

/-- The fee-history fallback never exceeds the cap it is given. -/
theorem getFallBackMaxPriorityFeePerGas_le {gasPrice priority : Nat}
    (h : getFallBackMaxPriorityFeePerGas answers gasPrice = .ok priority) : priority ≤ gasPrice := by
  unfold getFallBackMaxPriorityFeePerGas at h
  cases hhistory : answers.feeHistory with
  | error => simp [hhistory, bind, Except.bind] at h
  | ok reward =>
      cases reward with
      | none =>
          simp only [hhistory, bind, Except.bind, pure, Except.pure, Except.ok.injEq] at h
          exact h ▸ le_rfl
      | some reward =>
          simp only [hhistory, bind, Except.bind] at h
          split at h
          · cases h
          · cases h
            exact min_le_right _ _

/-- For all RPC answers in which `estimateFeesPerGas` rejects, or returns neither
field, the fee history is asked for a priority fee capped at
`maxFeePerGas ?? 0n`, that is at `0n`.  Whatever the rewards, the fallback
answers `0n`, and only its failure reaches the result: `estimateGasPrice`
returns the next base fee as the max fee, with a priority fee of 1/200 of it. -/
theorem estimateGasPrice_without_estimator
    (hfees : answers.fees = .ok (none, none) ∨ ∃ error, answers.fees = .error error) :
    estimateGasPrice answers =
      (getFallBackMaxPriorityFeePerGas answers 0).bind fun _ =>
        (getNextBaseFee answers).map fun nextBaseFee => ⟨nextBaseFee.toNat, nextBaseFee.toNat / 200⟩ := by
  have hfallback : ∀ priority, getFallBackMaxPriorityFeePerGas answers 0 = .ok priority → priority = 0 :=
    fun _ h => Nat.le_zero.1 (getFallBackMaxPriorityFeePerGas_le h)
  rcases hfees with hfees | ⟨error, hfees⟩ <;> simp only [estimateGasPrice, hfees, Option.getD_none]
  all_goals
    cases hf : getFallBackMaxPriorityFeePerGas answers 0 with
    | error => rfl
    | ok priority =>
        obtain rfl := hfallback priority hf
        cases getNextBaseFee answers <;> simp [bind, Except.bind, pure, Except.pure, Except.map]

/-- A rejected estimator and a fee history of 20th-percentile rewards averaging
3 gwei: the priority fee is still 1/200 of the next base fee of 1000. -/
theorem estimateGasPrice_without_estimator_history :
    let answers : RpcAnswers := ⟨none, .error "", .error "", .error "timeout",
      .ok (some (List.replicate 10 [3 * 10 ^ 9])), .ok ⟨some 1000, 50, 100⟩⟩
    (answers.fees = .ok (none, none) ∨ ∃ error, answers.fees = .error error) ∧
      estimateGasPrice answers =
        ((getFallBackMaxPriorityFeePerGas answers 0).bind fun _ =>
          (getNextBaseFee answers).map fun nextBaseFee => ⟨nextBaseFee.toNat, nextBaseFee.toNat / 200⟩) ∧
      estimateGasPrice answers = .ok ⟨1000, 5⟩ :=
  ⟨.inr ⟨_, rfl⟩, estimateGasPrice_without_estimator (.inr ⟨_, rfl⟩), rfl⟩

end AltoBundler.GasPrice
