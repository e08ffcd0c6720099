import Nullspace.Codec.Fixed
import Nullspace.Codec.Layout
import Nullspace.Codec.Format
import Nullspace.Casino.Economy.House
import Nullspace.Casino.Economy.Accounts
import Nullspace.Casino.Economy.Market
import Nullspace.Casino.Economy.Laws
import Nullspace.Casino.Economy.VaultRegistry
import Nullspace.Node.Engine
import Nullspace.Node.EngineRun
import Nullspace.Node.Ingress
import Nullspace.Node.Mailbox
