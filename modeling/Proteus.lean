import Proteus.Basic
import Proteus.Lang.Types
import Proteus.Lang.Message
import Proteus.Crypto.Chacha
import Proteus.Lang.Task
import Proteus.Lang.Interpreter
import Proteus.Lang.Execute
import Proteus.Lang.Loop
import Proteus.Lang.Run
import Proteus.Lang.Queries
import Proteus.Lang.PendingOps
import Proteus.Lang.Termination
import Proteus.Lang.Slots
import Proteus.Net.Socks
import Proteus.Net.Prototype
import Proteus.Net.Conversation
import Proteus.Lang.Interleaving
import Proteus.Lang.Parse
import Proteus.Lang.ParseTheorems
import Proteus.Lang.Async
import Proteus.Lang.Pump
import Proteus.Lang.LengthPayload
import Proteus.Lang.EncryptedLengthPayload
import Proteus.Lang.Nonces
import Proteus.Lang.Receiver
import Proteus.Lang.EncryptedPipeline
