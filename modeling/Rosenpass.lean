import Rosenpass.Lib.Buffer
import Rosenpass.Lib.LittleEndian
import Rosenpass.Lib.EState
import Rosenpass.Lib.System
import Rosenpass.Lib.Socket
import Rosenpass.Lib.Base64
import Rosenpass.ConstantTime
import Rosenpass.Ciphers
import Rosenpass.Msgs
import Rosenpass.Protocol.State
import Rosenpass.Protocol.Database
import Rosenpass.Protocol.Handshake
import Rosenpass.Protocol.Handlers
import Rosenpass.Protocol.Server
import Rosenpass.Protocol.Poll
import Rosenpass.Protocol.Run
import Rosenpass.Protocol.Network
import Rosenpass.Protocol.Spec
import Rosenpass.Protocol.Frame
import Rosenpass.Protocol.Schedule
import Rosenpass.Protocol.Steps
import Rosenpass.Protocol.Cookie
import Rosenpass.Protocol.Transcript
import Rosenpass.Protocol.Exchange
import Rosenpass.Properties.Stateless
import Rosenpass.Properties.Index
import Rosenpass.Properties.Errors
import Rosenpass.Properties.Biscuits
import Rosenpass.Properties.Cookies
import Rosenpass.Properties.Pacing
import Rosenpass.Properties.Rotation
import Rosenpass.Properties.Nonces
import Rosenpass.Properties.Agreement
import Rosenpass.Broker.Api
import Rosenpass.Broker.MioClient
import Rosenpass.Properties.Broker
import Rosenpass.App.Config
import Rosenpass.App.Endpoint
import Rosenpass.Properties.App
import Rosenpass.Util
import Rosenpass.Typenum
import Rosenpass.Rp.Cli
import Rosenpass.SecretMemory
