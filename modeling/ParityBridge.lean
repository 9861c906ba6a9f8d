import ParityBridge.Lib.Reach
import ParityBridge.Lib.IntervalChain
import ParityBridge.Lib.RingBuffer
import ParityBridge.Lib.Scale
import ParityBridge.Lib.SortedSearch
import ParityBridge.Lib.ParentPath
import ParityBridge.Lib.Ledger
import ParityBridge.Lib.RateLimit
import ParityBridge.Lib.CyclicWindow
import ParityBridge.Lib.Exclusive
import ParityBridge.Lib.SortedMap
import ParityBridge.Messages.Types
import ParityBridge.Messages.InboundLane
import ParityBridge.Messages.InboundLaneProofs
import ParityBridge.Messages.OutboundLane
import ParityBridge.Messages.OutboundLaneProofs
import ParityBridge.Messages.Rewards
import ParityBridge.Grandpa.Digest
import ParityBridge.Grandpa.DigestProofs
import ParityBridge.Runtime.StorageProof
import ParityBridge.Messages.RuntimeCommon
import ParityBridge.Messages.RuntimeCommonProofs
import ParityBridge.Messages.Pallet
import ParityBridge.Messages.PalletProofs
import ParityBridge.Messages.LaneSizeProofs
import ParityBridge.Messages.Bridge
import ParityBridge.Messages.BridgeProofs
import ParityBridge.Grandpa.Pallet
import ParityBridge.Grandpa.PalletProofs
import ParityBridge.Grandpa.Justification
import ParityBridge.Grandpa.JustificationProofs
import ParityBridge.Grandpa.JustificationPathProofs
import ParityBridge.Beefy.Pallet
import ParityBridge.Beefy.PalletProofs
import ParityBridge.Parachains.Pallet
import ParityBridge.Parachains.PalletProofs
import ParityBridge.Relay.ParachainsLoop
import ParityBridge.Relay.ParachainsLoopProofs
import ParityBridge.Relay.MessageRaceDelivery
import ParityBridge.Relay.MessageRaceDeliveryProofs
import ParityBridge.Relay.MessageRaceStrategyProofs
import ParityBridge.Relay.MessageRaceLoop
import ParityBridge.Relay.MessageRaceLoopProofs
import ParityBridge.Relay.MessagesSource
import ParityBridge.Relay.FinalityLoop
import ParityBridge.Relay.FinalityLoopProofs
import ParityBridge.Relay.OnDemandParachains
import ParityBridge.Relay.OnDemandParachainsProofs
import ParityBridge.Relay.OnDemandHeaders
import ParityBridge.Relay.OnDemandHeadersProofs
import ParityBridge.Relayers.Pallet
import ParityBridge.Relayers.PalletProofs
import ParityBridge.Refund.Extension
import ParityBridge.Refund.ExtensionProofs
import ParityBridge.Runtime.RejectObsolete
import ParityBridge.Runtime.RejectObsoleteProofs
import ParityBridge.Runtime.RequestBudgetProofs
import ParityBridge.ShiftSession.Pallet
import ParityBridge.ShiftSession.PalletProofs
import ParityBridge.Relay.MessagesSourceProofs
