import AltoBundler.GasPrice.History

/-!
# The gas-price manager

`createGasPriceManager` keeps a `GasPriceManagerState` of three history queues
and an Arbitrum manager with two more.  The RPC client is outside the model:
each call that awaits it takes the client's answer as an argument (a
`Refresh`), and `Date.now()` is the `timestamp` that answer is saved at.
Fee values are unsigned RPC quantities, so natural numbers.

Refreshes reach the state only through two saves, `updateGasPrice` and
`updateBaseFee`, whichever caller starts them: the `setInterval` tick when
`gasPriceRefreshInterval > 0`, and `getGasPrice`, `getBaseFee` and the
empty-queue fallbacks otherwise.  Their answers can come back in any order,
so the reachable states are those of `Reachable`: a successful creation, then
any sequence of saves, base-fee saves only when `legacyTransactions` is off.

## Results

The runs of the manager are studied in `Reachable.lean`, which shows the
window of each queue, that reachable states keep the fee queues non-empty, and
that the two cached last entries can form an inconsistent pair; and in
`Validate.lean`, which shows that a quote passes `validateGasPrice` while its
slice is in the window.
-/

namespace AltoBundler.GasPrice

/-- `GasPriceParameters`. -/
structure GasPriceParameters where
  maxFeePerGas : Nat
  maxPriorityFeePerGas : Nat
  deriving DecidableEq, Repr

/-- The fields of `AltoConfig` that the manager reads. -/
structure GasPriceConfig where
  gasPriceExpiry : Nat
  gasPriceRefreshInterval : Nat
  legacyTransactions : Bool
  chainType : String
  deriving DecidableEq, Repr

structure GasPriceManagerState where
  maxQueueSize : Nat
  queueBaseFeePerGas : List QueueEntry
  queueMaxFeePerGas : List QueueEntry
  queueMaxPriorityFeePerGas : List QueueEntry
  deriving DecidableEq, Repr

/-- Why a manager call rejects. -/
inductive GasPriceError
  /-- `RpcError`, with its message. -/
  | rpcError (message : String)
  /-- An awaited RPC call rejected. -/
  | fetchFailed (error : String)
  /-- A queue read at an index it does not have: destructuring `undefined`. -/
  | typeError
  deriving DecidableEq, Repr

/-- The RPC client's answers to one refresh. -/
structure Refresh where
  /-- What `innerGetGasPrice` resolves to, or its rejection. -/
  gasPrice : Except String GasPriceParameters
  /-- The `baseFeePerGas` of `getBlock()`, `none` for `null`, or its rejection. -/
  latestBlock : Except String (Option Nat)
  /-- `Date.now()` after the await. -/
  timestamp : Nat

/-! ## Saves -/

def saveMaxFeePerGas (state : GasPriceManagerState) (maxFeePerGas timestamp : Nat) :
    GasPriceManagerState :=
  { state with queueMaxFeePerGas :=
      saveToQueue 1000 state.maxQueueSize state.queueMaxFeePerGas maxFeePerGas timestamp }

def saveMaxPriorityFeePerGas (state : GasPriceManagerState) (maxPriorityFeePerGas timestamp : Nat) :
    GasPriceManagerState :=
  { state with queueMaxPriorityFeePerGas :=
      saveToQueue 1000 state.maxQueueSize state.queueMaxPriorityFeePerGas maxPriorityFeePerGas timestamp }

def saveBaseFeePerGas (state : GasPriceManagerState) (baseFeePerGas timestamp : Nat) :
    GasPriceManagerState :=
  { state with queueBaseFeePerGas :=
      saveToQueue 1000 state.maxQueueSize state.queueBaseFeePerGas baseFeePerGas timestamp }

section SaveFields

variable (state : GasPriceManagerState) (value timestamp : Nat)

@[simp] theorem saveMaxFeePerGas_maxQueueSize :
    (saveMaxFeePerGas state value timestamp).maxQueueSize = state.maxQueueSize := rfl
@[simp] theorem saveMaxFeePerGas_queueBaseFeePerGas :
    (saveMaxFeePerGas state value timestamp).queueBaseFeePerGas = state.queueBaseFeePerGas := rfl
@[simp] theorem saveMaxFeePerGas_queueMaxFeePerGas :
    (saveMaxFeePerGas state value timestamp).queueMaxFeePerGas =
      saveToQueue 1000 state.maxQueueSize state.queueMaxFeePerGas value timestamp := rfl
@[simp] theorem saveMaxFeePerGas_queueMaxPriorityFeePerGas :
    (saveMaxFeePerGas state value timestamp).queueMaxPriorityFeePerGas =
      state.queueMaxPriorityFeePerGas := rfl

@[simp] theorem saveMaxPriorityFeePerGas_maxQueueSize :
    (saveMaxPriorityFeePerGas state value timestamp).maxQueueSize = state.maxQueueSize := rfl
@[simp] theorem saveMaxPriorityFeePerGas_queueBaseFeePerGas :
    (saveMaxPriorityFeePerGas state value timestamp).queueBaseFeePerGas = state.queueBaseFeePerGas := rfl
@[simp] theorem saveMaxPriorityFeePerGas_queueMaxFeePerGas :
    (saveMaxPriorityFeePerGas state value timestamp).queueMaxFeePerGas = state.queueMaxFeePerGas := rfl
@[simp] theorem saveMaxPriorityFeePerGas_queueMaxPriorityFeePerGas :
    (saveMaxPriorityFeePerGas state value timestamp).queueMaxPriorityFeePerGas =
      saveToQueue 1000 state.maxQueueSize state.queueMaxPriorityFeePerGas value timestamp := rfl

@[simp] theorem saveBaseFeePerGas_maxQueueSize :
    (saveBaseFeePerGas state value timestamp).maxQueueSize = state.maxQueueSize := rfl
@[simp] theorem saveBaseFeePerGas_queueBaseFeePerGas :
    (saveBaseFeePerGas state value timestamp).queueBaseFeePerGas =
      saveToQueue 1000 state.maxQueueSize state.queueBaseFeePerGas value timestamp := rfl
@[simp] theorem saveBaseFeePerGas_queueMaxFeePerGas :
    (saveBaseFeePerGas state value timestamp).queueMaxFeePerGas = state.queueMaxFeePerGas := rfl
@[simp] theorem saveBaseFeePerGas_queueMaxPriorityFeePerGas :
    (saveBaseFeePerGas state value timestamp).queueMaxPriorityFeePerGas =
      state.queueMaxPriorityFeePerGas := rfl

end SaveFields

/-- The closure state of `createArbitrumManager`. -/
structure ArbitrumManagerState where
  maxQueueSize : Nat
  queueL1BaseFee : List QueueEntry
  queueL2BaseFee : List QueueEntry
  deriving DecidableEq, Repr

/-- `queueValidity`, the slice of the Arbitrum queues. -/
def queueValidity : Nat := 15000

/-- `createArbitrumManager`: both queues start empty. -/
def createArbitrumManager (maxQueueSize : Nat) : ArbitrumManagerState := ⟨maxQueueSize, [], []⟩

/-- `saveL1BaseFee`: unlike the three fee queues, it ignores `0n`. -/
def saveL1BaseFee (state : ArbitrumManagerState) (baseFee timestamp : Nat) : ArbitrumManagerState :=
  if baseFee = 0 then state
  else
    { state with
      queueL1BaseFee := saveToQueue queueValidity state.maxQueueSize state.queueL1BaseFee baseFee timestamp }

/-- `saveL2BaseFee`: unlike the three fee queues, it ignores `0n`. -/
def saveL2BaseFee (state : ArbitrumManagerState) (baseFee timestamp : Nat) : ArbitrumManagerState :=
  if baseFee = 0 then state
  else
    { state with
      queueL2BaseFee := saveToQueue queueValidity state.maxQueueSize state.queueL2BaseFee baseFee timestamp }

/-- viem's `maxUint128`. -/
def maxUint128 : Nat := 2 ^ 128 - 1

/-- `queue.reduce((acc, cur) => minBigInt(cur.value, acc), queue[0].value)` on a
non-empty queue. -/
def queueMin (first : QueueEntry) (rest : List QueueEntry) : Nat :=
  (first :: rest).foldl (fun acc cur => min cur.value acc) first.value

/-- The same reduce with `maxBigInt`. -/
def queueMax (first : QueueEntry) (rest : List QueueEntry) : Nat :=
  (first :: rest).foldl (fun acc cur => max cur.value acc) first.value

def getMinL1BaseFee (state : ArbitrumManagerState) : Nat :=
  match state.queueL1BaseFee with
  | [] => 1
  | first :: rest => queueMin first rest

def getMaxL1BaseFee (state : ArbitrumManagerState) : Nat :=
  match state.queueL1BaseFee with
  | [] => maxUint128
  | first :: rest => queueMax first rest

def getMaxL2BaseFee (state : ArbitrumManagerState) : Nat :=
  match state.queueL2BaseFee with
  | [] => maxUint128
  | first :: rest => queueMax first rest

/-! ## Refreshes -/

/-- `updateGasPrice`: await the fee computation, then save both fields at one
timestamp. -/
def updateGasPrice (state : GasPriceManagerState) (gasPrice : Except String GasPriceParameters)
    (timestamp : Nat) : Except GasPriceError (GasPriceParameters × GasPriceManagerState) :=
  match gasPrice with
  | .error e => .error (.fetchFailed e)
  | .ok gasPrice =>
      .ok (gasPrice, saveMaxPriorityFeePerGas (saveMaxFeePerGas state gasPrice.maxFeePerGas timestamp)
        gasPrice.maxPriorityFeePerGas timestamp)

/-- `updateBaseFee`: a block without `baseFeePerGas` is an `RpcError`. -/
def updateBaseFee (state : GasPriceManagerState) (latestBlock : Except String (Option Nat))
    (timestamp : Nat) : Except GasPriceError (Nat × GasPriceManagerState) :=
  match latestBlock with
  | .error e => .error (.fetchFailed e)
  | .ok none => .error (.rpcError "block does not have baseFeePerGas")
  | .ok (some baseFeePerGas) => .ok (baseFeePerGas, saveBaseFeePerGas state baseFeePerGas timestamp)

/-- The state `createGasPriceManager` starts from. -/
def GasPriceManagerState.init (maxQueueSize : Nat) : GasPriceManagerState :=
  ⟨maxQueueSize, [], [], []⟩

/-- `createGasPriceManager`: the two first refreshes run under `Promise.all`, so
the manager exists only when both succeed; they save to different queues. -/
def createGasPriceManager (config : GasPriceConfig) (gasPrice : Except String GasPriceParameters)
    (latestBlock : Except String (Option Nat)) (gasPriceTimestamp baseFeeTimestamp : Nat) :
    Except GasPriceError GasPriceManagerState := do
  let (_, state) ← updateGasPrice (.init config.gasPriceExpiry) gasPrice gasPriceTimestamp
  if config.legacyTransactions = false then
    let (_, state) ← updateBaseFee state latestBlock baseFeeTimestamp
    pure state
  else pure state

/-! ## Readers -/

section Readers

variable (config : GasPriceConfig) (state : GasPriceManagerState)

def getBaseFee (refresh : Refresh) : Except GasPriceError (Nat × GasPriceManagerState) :=
  if config.legacyTransactions then .error (.rpcError "baseFee is not available for legacy transactions")
  else if config.gasPriceRefreshInterval = 0 then updateBaseFee state refresh.latestBlock refresh.timestamp
  else
    match state.queueBaseFeePerGas.getLast? with
    | some last => .ok (last.value, state)
    | none => .error .typeError

def getGasPrice (refresh : Refresh) : Except GasPriceError (GasPriceParameters × GasPriceManagerState) :=
  if config.gasPriceRefreshInterval = 0 then updateGasPrice state refresh.gasPrice refresh.timestamp
  else
    match state.queueMaxPriorityFeePerGas.getLast?, state.queueMaxFeePerGas.getLast? with
    | some priority, some max => .ok (⟨max.value, priority.value⟩, state)
    | _, _ => .error .typeError

/-- `getMinMaxFeePerGas`: refresh first when the queue is empty, then reduce. -/
def getMinMaxFeePerGas (refresh : Refresh) : Except GasPriceError (Nat × GasPriceManagerState) := do
  let state ← if state.queueMaxFeePerGas = [] then Prod.snd <$> getGasPrice config state refresh
    else pure state
  match state.queueMaxFeePerGas with
  | [] => .error .typeError
  | first :: rest => pure (queueMin first rest, state)

def getMinMaxPriorityFeePerGas (refresh : Refresh) :
    Except GasPriceError (Nat × GasPriceManagerState) := do
  let state ← if state.queueMaxPriorityFeePerGas = [] then Prod.snd <$> getGasPrice config state refresh
    else pure state
  match state.queueMaxPriorityFeePerGas with
  | [] => .error .typeError
  | first :: rest => pure (queueMin first rest, state)

def getMaxBaseFeePerGas (refresh : Refresh) : Except GasPriceError (Nat × GasPriceManagerState) := do
  let state ← if state.queueBaseFeePerGas = [] then Prod.snd <$> getBaseFee config state refresh
    else pure state
  match state.queueBaseFeePerGas with
  | [] => .error .typeError
  | first :: rest => pure (queueMax first rest, state)

/-- `validateGasPrice`: the window minima, scaled down by `10^9` on Hedera, bound
the proposed fees from below. -/
def validateGasPrice (gasPrice : GasPriceParameters) (refresh refresh' : Refresh) :
    Except GasPriceError GasPriceManagerState := do
  let (lowestMaxFeePerGas, state) ← getMinMaxFeePerGas config state refresh
  let (lowestMaxPriorityFeePerGas, state) ← getMinMaxPriorityFeePerGas config state refresh'
  let hedera := config.chainType = "hedera"
  let lowestMaxFeePerGas := if hedera then lowestMaxFeePerGas / 10 ^ 9 else lowestMaxFeePerGas
  let lowestMaxPriorityFeePerGas :=
    if hedera then lowestMaxPriorityFeePerGas / 10 ^ 9 else lowestMaxPriorityFeePerGas
  let current := gasPrice.maxFeePerGas
  if current < lowestMaxFeePerGas then
    throw (.rpcError s!"maxFeePerGas must be at least {lowestMaxFeePerGas} (current maxFeePerGas: {current}) - use pimlico_getUserOperationGasPrice to get the current gas price")
  let current := gasPrice.maxPriorityFeePerGas
  if current < lowestMaxPriorityFeePerGas then
    throw (.rpcError s!"maxPriorityFeePerGas must be at least {lowestMaxPriorityFeePerGas} (current maxPriorityFeePerGas: {current}) - use pimlico_getUserOperationGasPrice to get the current gas price")
  pure state

end Readers

/-! ## Reachable states -/

/-- A refresh whose answer came back and was saved. -/
inductive GasPriceEvent
  | gasPriceSaved (gasPrice : Except String GasPriceParameters) (timestamp : Nat)
  | baseFeeSaved (latestBlock : Except String (Option Nat)) (timestamp : Nat)

/-- The state after a refresh returns; a rejected refresh saves nothing. -/
def GasPriceManagerState.apply (state : GasPriceManagerState) : GasPriceEvent → GasPriceManagerState
  | .gasPriceSaved gasPrice timestamp =>
      match updateGasPrice state gasPrice timestamp with
      | .ok (_, state') => state'
      | .error _ => state
  | .baseFeeSaved latestBlock timestamp =>
      match updateBaseFee state latestBlock timestamp with
      | .ok (_, state') => state'
      | .error _ => state

/-- Base-fee refreshes only run when `legacyTransactions` is off. -/
def GasPriceEvent.Allowed (config : GasPriceConfig) : GasPriceEvent → Prop
  | .gasPriceSaved _ _ => True
  | .baseFeeSaved _ _ => config.legacyTransactions = false

inductive Reachable (config : GasPriceConfig) : GasPriceManagerState → Prop
  | create {state : GasPriceManagerState} (gasPrice : Except String GasPriceParameters)
      (latestBlock : Except String (Option Nat)) (gasPriceTimestamp baseFeeTimestamp : Nat) :
      createGasPriceManager config gasPrice latestBlock gasPriceTimestamp baseFeeTimestamp = .ok state →
      Reachable config state
  | step {state : GasPriceManagerState} (event : GasPriceEvent) :
      Reachable config state → event.Allowed config → Reachable config (state.apply event)

end AltoBundler.GasPrice
