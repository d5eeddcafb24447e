import Soqucoin.ThresholdProofs
import Soqucoin.AuthorityChainProofs
import Soqucoin.FrozenCoinProofs
import Soqucoin.CrashProofs
import Soqucoin.SigOpWorkProofs
import Soqucoin.ActivationProofs
import Soqucoin.DryRunProofs
import Soqucoin.PatProofs
import Soqucoin.MempoolBTCSOQProofs
import Soqucoin.CompactionProofs
import Soqucoin.KeyhashProofs
import Soqucoin.ControlFlowProofs
import Soqucoin.TimelockProofs
import Soqucoin.TemplateProofs
import Soqucoin.PatAggregateProofs
import Soqucoin.BlockAccumulatorProofs
import Soqucoin.CoinOptionsProofs
import Soqucoin.PQAddressProofs
import Soqucoin.SighashProofs
import Soqucoin.UsdsoqRpcProofs
import Soqucoin.SnapshotArtifactProofs
import Soqucoin.AuxPowProofs
import Soqucoin.PayoutProofs
import Soqucoin.Retarget
import Soqucoin.WalletCrypto
