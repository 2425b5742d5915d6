import InstanceMessage.Server.SessionBinding
import InstanceMessage.Server.FriendPairs
import InstanceMessage.Server.Authority
import InstanceMessage.Server.Survival
import InstanceMessage.Server.Receiving
import InstanceMessage.Server.Workers
import InstanceMessage.Server.Streams
import InstanceMessage.Server.ReceivingRefinement
import InstanceMessage.Client.Receiving
import InstanceMessage.Server.LFThreadPool
import InstanceMessage.Server.PoolProgress
import InstanceMessage.Server.PoolLeader
import InstanceMessage.Server.PoolNesting
import InstanceMessage.Server.Queries
import InstanceMessage.Server.Decoding
import InstanceMessage.Server.CMySql
import InstanceMessage.Server.Accounts
import InstanceMessage.Server.Answers
import InstanceMessage.Server.Closing
import InstanceMessage.Server.Logout
import InstanceMessage.Server.UserInfos
import InstanceMessage.Server.Echoes
import InstanceMessage.Server.LoginFirst
import InstanceMessage.Server.Service
import InstanceMessage.Client.CKernel
import InstanceMessage.Client.Dialogs
import InstanceMessage.System
import InstanceMessage.Agreements
import InstanceMessage.Consent
import InstanceMessage.FriendLists
import InstanceMessage.Presence
import InstanceMessage.Messenger
import InstanceMessage.Server.Sequence
import InstanceMessage.Server.Refinement
import InstanceMessage.Server.SingleThread
import InstanceMessage.Server.PoolRefinement
import InstanceMessage.Server.PoolSimulation
import InstanceMessage.Server.PoolShutdown
import InstanceMessage.Chats
import InstanceMessage.Server.ProcessRefinement
import InstanceMessage.Client.Downlink
import InstanceMessage.Deployment
import InstanceMessage.DeploymentRefinement
import InstanceMessage.EndToEnd
