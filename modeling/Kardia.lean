import Kardia.Values
import Kardia.PeerState
import Kardia.MirrorRuns
import Kardia.Reactor
import Kardia.Gossip
import Kardia.Lru
import Kardia.HeaderChain
import Kardia.HeaderChainRuns
import Kardia.Rewind
import Kardia.Evidence
import Kardia.EvidenceBroadcast
import Kardia.StepGossip
