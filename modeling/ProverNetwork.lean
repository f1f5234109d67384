import ProverNetwork.Ports.CircomAnswer
import ProverNetwork.Ports.CircomBigint
import ProverNetwork.Ports.CircomExport
import ProverNetwork.Ports.CircomProver
import ProverNetwork.Ports.CircomProverCells
import ProverNetwork.Ports.CircomProverGuards
import ProverNetwork.Ports.CircomR1CSFile
import ProverNetwork.Ports.CircomRequests
import ProverNetwork.Ports.CircomWires
import ProverNetwork.Ports.ConnectionPool
import ProverNetwork.Ports.ConnectionPoolPlaces
import ProverNetwork.Ports.ConnectionPoolRun
import ProverNetwork.Ports.Constant
import ProverNetwork.Ports.CreditedProject
import ProverNetwork.Ports.DeviceSelection
import ProverNetwork.Ports.DeviceTasks
import ProverNetwork.Ports.GetNode
import ProverNetwork.Ports.GnarkExport
import ProverNetwork.Ports.GnarkProver
import ProverNetwork.Ports.GnarkProverAnswers
import ProverNetwork.Ports.GnarkProverBuilds
import ProverNetwork.Ports.GnarkProverConvert
import ProverNetwork.Ports.GrpcAddress
import ProverNetwork.Ports.HttpEndpoint
import ProverNetwork.Ports.HubResponse
import ProverNetwork.Ports.KeyCache
import ProverNetwork.Ports.KeyRefresh
import ProverNetwork.Ports.LoadAllCircuits
import ProverNetwork.Ports.MerkleTreeVerify
import ProverNetwork.Ports.NodeAddress
import ProverNetwork.Ports.NodeList
import ProverNetwork.Ports.NodeListEviction
import ProverNetwork.Ports.NodeListHistory
import ProverNetwork.Ports.NodeListSelection
import ProverNetwork.Ports.NodeRegister
import ProverNetwork.Ports.NodeRegisterTable
import ProverNetwork.Ports.OAuthModulus
import ProverNetwork.Ports.OAuthProvider
import ProverNetwork.Ports.ParseWtns
import ProverNetwork.Ports.ProjectIds
import ProverNetwork.Ports.ProjectManager
import ProverNetwork.Ports.ProofManager
import ProverNetwork.Ports.ProofManagerCount
import ProverNetwork.Ports.ProofManagerExpiry
import ProverNetwork.Ports.ProofManagerFile
import ProverNetwork.Ports.ProofManagerFlush
import ProverNetwork.Ports.ProofManagerHistory
import ProverNetwork.Ports.ProofManagerPush
import ProverNetwork.Ports.ProofManagerRun
import ProverNetwork.Ports.ProofManagerStanding
import ProverNetwork.Ports.ProveNode
import ProverNetwork.Ports.ProveNodeReports
import ProverNetwork.Ports.ProveService
import ProverNetwork.Ports.ProveServiceAnswers
import ProverNetwork.Ports.ProveServiceMethods
import ProverNetwork.Ports.ProverCalls
import ProverNetwork.Ports.ProverCallsEnd
import ProverNetwork.Ports.ProverClient
import ProverNetwork.Ports.ProverInstances
import ProverNetwork.Ports.ProverRpc
import ProverNetwork.Ports.Pub2Addr
import ProverNetwork.Ports.PushTask
import ProverNetwork.Ports.PyVal
import ProverNetwork.Ports.R1CSLayout
import ProverNetwork.Ports.R1CSRefusal
import ProverNetwork.Ports.RSAEncryption
import ProverNetwork.Ports.ReadCircomR1CS
import ProverNetwork.Ports.ResultReport
import ProverNetwork.Ports.Scheduler
import ProverNetwork.Ports.SchedulerLimit
import ProverNetwork.Ports.SchedulerQueue
import ProverNetwork.Ports.SendHeartbeat
import ProverNetwork.Ports.TakoGnarkEcdsa
import ProverNetwork.Ports.TaskNetwork
import ProverNetwork.Ports.TaskNetworkBounds
import ProverNetwork.Ports.TaskNetworkKept
import ProverNetwork.Ports.TaskNetworkPushes
import ProverNetwork.Ports.TaskNetworkTruth
import ProverNetwork.Ports.Term
import ProverNetwork.Ports.VerifierRefusal
import ProverNetwork.Ports.VerifierUpdate
import ProverNetwork.Ports.WtnsAcceptance
import ProverNetwork.Ports.X509Google
import ProverNetwork.Verified.AsyncQueue
import ProverNetwork.Verified.Base64
import ProverNetwork.Verified.Base85
import ProverNetwork.Verified.Binary64
import ProverNetwork.Verified.Bn254
import ProverNetwork.Verified.Component
import ProverNetwork.Verified.Decimal
import ProverNetwork.Verified.Dict
import ProverNetwork.Verified.Expiry
import ProverNetwork.Verified.FileStore
import ProverNetwork.Verified.FixedDigits
import ProverNetwork.Verified.GoJson
import ProverNetwork.Verified.GoSlice
import ProverNetwork.Verified.GoValue
import ProverNetwork.Verified.HashChain
import ProverNetwork.Verified.Heartbeat
import ProverNetwork.Verified.Hex
import ProverNetwork.Verified.JsonText
import ProverNetwork.Verified.Keccak
import ProverNetwork.Verified.LittleEndian
import ProverNetwork.Verified.MerkleTree
import ProverNetwork.Verified.Progress
import ProverNetwork.Verified.PyNumeral
import ProverNetwork.Verified.PyText
import ProverNetwork.Verified.R1CS
import ProverNetwork.Verified.Reply
import ProverNetwork.Verified.Run
import ProverNetwork.Verified.Scan
import ProverNetwork.Verified.Sha256
import ProverNetwork.Verified.Stamped
import ProverNetwork.Verified.Strconv
import ProverNetwork.Verified.UrlParse
import ProverNetwork.Verified.Weight
