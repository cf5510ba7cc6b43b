import AltoBundler.Mempool.SenderNonceKey
import AltoBundler.Mempool.MemoryStore
import AltoBundler.Mempool.Reconcile
import AltoBundler.Mempool.Invariants
import AltoBundler.Mempool.Interleaving
import AltoBundler.Mempool.Publish
import AltoBundler.GasPrice.History
import AltoBundler.GasPrice.Manager
import AltoBundler.GasPrice.Reachable
import AltoBundler.GasPrice.Validate
import AltoBundler.GasPrice.Estimate
import AltoBundler.GasPrice.Quotes
import AltoBundler.Executor.LocalSenderManager
import AltoBundler.Executor.RedisSenderManager
import AltoBundler.Executor.ServiceOrder
