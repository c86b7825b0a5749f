import Tapyrus.Lib.Bytes
import Tapyrus.Lib.Reader
import Tapyrus.Lib.PrefixCode
import Tapyrus.Lib.Buffer
import Tapyrus.Lib.CmpMap
import Tapyrus.Lib.Avoids
import Tapyrus.Lib.DigitBuffer
import Tapyrus.Primitives
import Tapyrus.Serialize
import Tapyrus.ColorIdentifier
import Tapyrus.XField
import Tapyrus.Script.Script
import Tapyrus.Script.ColorScript
import Tapyrus.Script.ScriptNum
import Tapyrus.Script.Checks
import Tapyrus.Script.Interpreter
import Tapyrus.Script.Verify
import Tapyrus.Lib.OkLe
import Tapyrus.Script.Flags
import Tapyrus.Script.Total
import Tapyrus.Script.ColorSpend
import Tapyrus.Lib.AListSum
import Tapyrus.Transaction
import Tapyrus.Block
import Tapyrus.Merkle
import Tapyrus.Coins
import Tapyrus.CoinsCache
import Tapyrus.XFieldHistory
import Tapyrus.TxVerify
import Tapyrus.Validation.CheckBlock
import Tapyrus.Validation.ConnectBlock
import Tapyrus.Validation.Supply
import Tapyrus.Validation.Tokens
import Tapyrus.Validation.ChainState
import Tapyrus.Policy
import Tapyrus.Destination
import Tapyrus.Base58
import Tapyrus.KeyIO
import Tapyrus.CompactBlock
import Tapyrus.Undo
import Tapyrus.TxMemPool
import Tapyrus.TxMemPoolCheck
import Tapyrus.TxMemPoolGraph
import Tapyrus.Validation.Mempool
import Tapyrus.Validation.ColorSums
import Tapyrus.Packages
import Tapyrus.HeaderRead
import Tapyrus.CoinsDB
import Tapyrus.TxRead
import Tapyrus.Prevector
import Tapyrus.Chain
import Tapyrus.CheckQueue
import Tapyrus.Validation.ScriptCheckQueue
import Tapyrus.Validation.Recheck
import Tapyrus.Validation.MempoolRuns
import Tapyrus.Validation.Disconnect
import Tapyrus.Validation.Reorg
