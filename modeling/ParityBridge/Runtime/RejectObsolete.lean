import ParityBridge.Refund.Extension
import ParityBridge.Messages.Pallet

/-! # Rejecting obsolete bridge transactions — `BridgeRejectObsoleteHeadersAndMessages`

    The signed extension `generate_bridge_reject_obsolete_headers_and_messages!`
    builds for a runtime out of the `BridgeRuntimeFilterCall`s of its bridge
    pallets: a transaction is invalid as soon as one of them rejects its
    call.  The GRANDPA pallet rejects a finality proof of a header no newer
    than the best finalized one (`check_obsolete_submit_finality_proof`),
    the parachains pallet a one-head call whose head is not newer than the
    stored one (`check_obsolete_submit_parachain_heads`), and the messages
    pallet a messages proof whose last nonce is delivered already, or a
    delivery proof whose last delivered nonce is received already
    (`check_obsolete_call`).  The three checks are those of
    `Refund.Extension`, applied to the call itself.

    What the filter is for is to keep useless calls out of blocks.  The
    runtime state here is the storage of the three pallets, and `dispatch`
    runs a call with all its arguments: the GRANDPA and parachains calls of
    their pallets, the parachains pallet reading relay headers from the
    GRANDPA pallet, and the two messages calls with the runtime-common proof
    verifiers. -/

namespace ParityBridge

namespace RejectObsolete

open Grandpa Parachains Refund RuntimeCommon MessagesPallet

/-- The bridge calls the filter looks at, with all their arguments; the
    bridged chain's headers are those the GRANDPA pallet imports. -/
inductive BridgeCall (H J PH Pf R S : Type) where
  | submitFinalityProof (finalityTarget : Header H) (justification : J)
  | submitParachainHeads (atRelayBlock : ℕ × H) (parachains : List (ℕ × PH))
      (parachainHeadsProof : Pf)
  | receiveMessagesProof (relayerIdAtBridgedChain : R) (proof : FromBridgedChainMessagesProof H S)
      (messagesCount : ℕ) (dispatchWeight : Weight)
  | receiveMessagesDeliveryProof (proof : FromBridgedChainMessagesDeliveryProof H S)
      (relayersState : UnrewardedRelayersState)

variable {H Au J PH Pf R Acc P E S : Type}

/-- The call as the checks read it: the messages calls through the lane and
    the nonce their proofs declare. -/
def BridgeCall.toRuntimeCall : BridgeCall H J PH Pf R S → RuntimeCall H J PH H Pf
  | .submitFinalityProof finalityTarget justification =>
      .submitFinalityProof finalityTarget justification
  | .submitParachainHeads atRelayBlock parachains parachainHeadsProof =>
      .submitParachainHeads atRelayBlock parachains parachainHeadsProof
  | .receiveMessagesProof _ proof _ _ => .receiveMessagesProof proof.lane proof.noncesEnd
  | .receiveMessagesDeliveryProof proof relayersState =>
      .receiveMessagesDeliveryProof proof.lane relayersState

/-- `BridgeRejectObsoleteHeadersAndMessages::validate`: the filters of the
    GRANDPA, parachains and messages pallets on the call, the first
    rejection rejecting the transaction. -/
def validate [DecidableEq PH] (extraOf : Header H → J → Weight × ℕ)
    (σ : RuntimeState H Au R PH Acc) (call : RuntimeCall H J PH H Pf) :
    Except InvalidTransaction Unit := do
  call.checkObsoleteSubmitFinalityProof extraOf σ
  call.checkObsoleteSubmitParachainHeads σ
  call.checkObsoleteCall σ

/-- The runtime's configuration of the three pallets: the GRANDPA pallet's
    constants, header hashing, digest decoding and justification check; the
    parachains pallet's configuration and its opening of storage proofs at a
    relay block; the messages pallet's constants, the opening of storage
    proofs of the bridged chain the runtime-common verifiers read, and the
    message dispatch. -/
structure BridgeRuntimeConfig (H Au J PH Pf R Acc P E S : Type) where
  grandpa : GrandpaConfig
  hasher : Header H → H
  decode : List UInt8 → Option (ConsensusLog Au)
  verifyJustification : J → H → ℕ → StoredAuthoritySet Au → Except GrandpaError Unit
  parachains : ParachainsConfig ℕ PH
  newChecker : H → Pf → Except StorageProofError (StorageProofChecker ℕ)
  messages : MessagesConfig
  parseFinalizedStorageProof : H → S → Except String (MessagesStorageProof R)
  intoDispatchData : MessagePayload → P
  dispatchWeight : DispatchMessage P → Weight
  dispatch : Acc → DispatchMessage P → MessageDispatchResult E
  receiveMessagesProofWeight : FromBridgedChainMessagesProof H S → ℕ → Weight → Weight
  extraProofSizeBytes : InboundLaneData R → ℕ

/-- The storage of the bridge pallets: what the extensions read
    (`RuntimeState`), and the rest of the messages pallet's storage. -/
structure BridgeRuntime (H Au R PH Acc : Type) where
  state : RuntimeState H Au R PH Acc
  messagesOperatingMode : MessagesOperatingMode
  outboundMessages : MessageKey → Option MessagePayload

namespace BridgeRuntime

/-- The messages pallet's storage. -/
def messages (rt : BridgeRuntime H Au R PH Acc) : MessagesStorage R :=
  ⟨rt.messagesOperatingMode, rt.state.inboundLanes, rt.state.outboundLanes, rt.outboundMessages⟩

/-- The runtime with the messages pallet's storage replaced. -/
def withMessages (rt : BridgeRuntime H Au R PH Acc) (m : MessagesStorage R) :
    BridgeRuntime H Au R PH Acc :=
  { rt with
    state := { rt.state with inboundLanes := m.inboundLanes, outboundLanes := m.outboundLanes }
    messagesOperatingMode := m.palletOperatingMode
    outboundMessages := m.outboundMessages }

end BridgeRuntime

/-- A signed call by `who`, dispatched: the storage it leaves, the storage
    as it was when it fails. -/
def dispatch [DecidableEq H] [DecidableEq PH] [DecidableEq R]
    (cfg : BridgeRuntimeConfig H Au J PH Pf R Acc P E S) (rt : BridgeRuntime H Au R PH Acc)
    (who : Acc) : BridgeCall H J PH Pf R S → BridgeRuntime H Au R PH Acc
  | .submitFinalityProof finalityTarget justification =>
      { rt with state := { rt.state with
          grandpa := (Grandpa.submitFinalityProof cfg.grandpa cfg.hasher cfg.decode
            cfg.verifyJustification rt.state.grandpa finalityTarget justification).2 } }
  | .submitParachainHeads atRelayBlock parachains parachainHeadsProof =>
      { rt with state := { rt.state with
          parachains := (submitParachainHeads cfg.parachains rt.state.grandpa.importedHeaders
            cfg.newChecker rt.state.parachains atRelayBlock parachains parachainHeadsProof).2 } }
  | .receiveMessagesProof relayerIdAtBridgedChain proof messagesCount dispatchWeight =>
      match MessagesPallet.receiveMessagesProof cfg.messages cfg.dispatch cfg.dispatchWeight
          relayerIdAtBridgedChain who (verifyMessagesProof cfg.parseFinalizedStorageProof)
          cfg.intoDispatchData cfg.receiveMessagesProofWeight cfg.extraProofSizeBytes rt.messages
          proof messagesCount dispatchWeight with
      | .ok out => rt.withMessages out.storage
      | .error _ => rt
  | .receiveMessagesDeliveryProof proof relayersState =>
      match MessagesPallet.receiveMessagesDeliveryProof
          (verifyMessagesDeliveryProof cfg.parseFinalizedStorageProof) rt.messages proof
          relayersState with
      | .ok (_, m) => rt.withMessages m
      | .error _ => rt

end RejectObsolete

end ParityBridge
