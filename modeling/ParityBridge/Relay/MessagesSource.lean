import ParityBridge.Relay.MessageRaceDelivery
import ParityBridge.Messages.RuntimeCommon
import ParityBridge.Lib.Scale
import ParityBridge.Lib.SortedMap

/-! # The messages source client — `generated_message_details`

    The delivery race asks the source client for the details of the
    messages of a nonce range.  `SubstrateMessagesSource` reads them from
    the source chain's runtime API, checks that they are the range with at
    most some of its first nonces missing (messages already pruned at the
    source: `validate_out_msgs_details`), reads each message's payload, and
    asks the target chain's runtime API for the weight each message will
    take there.  That second call takes the messages in batches that each
    fit in a target extrinsic (`split_msgs_to_refine`), and the weights it
    answers replace those of the source through the `&mut` references the
    batches hold.

    The chains' calls are what they answer: the source's details of the
    range, the payload stored for each nonce, and the target's details of
    a batch.  A `&mut OutboundMessageDetails` of a batch is the position of
    the details it points at; the batches are made before any weight is
    written, so each also carries the details it points at then.  The
    client's errors are their constructors, with the values their texts
    print. -/

namespace ParityBridge

namespace MessagesSource

open MessageRace RuntimeCommon

/-- `OutboundMessageDetails`: what the source chain's runtime API reports
    of a message. -/
structure OutboundMessageDetails where
  nonce : ℕ
  dispatchWeight : Weight
  size : ℕ
deriving DecidableEq, Repr

/-- `InboundMessageDetails`: the dispatch weight the target chain's runtime
    API computes for a message. -/
structure InboundMessageDetails where
  dispatchWeight : Weight
deriving DecidableEq, Repr

/-- The errors of `generated_message_details`: an error of a chain's call,
    passed on by `?`, and the `SubstrateError::Custom`s it makes. -/
inductive SubstrateError (E : Type) where
  /-- An error of a chain's call. -/
  | client (error : E)
  /-- "Missing nonce … in message_details call result. Expected all nonces
      from …", with the nonce and the range. -/
  | missingNonce (expectedNonce : ℕ) (nonces : RangeInclusive)
  /-- "More messages than requested returned by the message_details call." -/
  | moreMessagesThanRequested
  /-- "Message to … is missing from runtime the storage of …", with the
      message's nonce. -/
  | messageIsMissing (nonce : ℕ)
  /-- "Call of … at … can't be executed even if only one message is
      supplied. max_extrinsic_size(): …", with that size. -/
  | singleMessageTooLarge (maxExtrinsicSize : ℕ)
  /-- "Call of … at … has returned … entries instead of expected …", with
      the two counts. -/
  | unexpectedEntriesCount (returned expected : ℕ)
deriving DecidableEq, Repr

variable {E : Type}

/-! ## `validate_out_msgs_details` -/

/-- `RangeInclusive::count`: the number of nonces of the range. -/
def noncesCount (nonces : RangeInclusive) : ℕ :=
  nonces.end + 1 - nonces.start

/-- The `while let` loop of `validate_out_msgs_details`: the details and the
    range's nonces, both walked from the back, until the shorter ends. -/
def checkNoncesFromBack (nonces : RangeInclusive) :
    List OutboundMessageDetails → List ℕ → Except (SubstrateError E) Unit
  | outMsgDetails :: outMsgsDetails, nonce :: noncesIter =>
      if outMsgDetails.nonce ≠ nonce then .error (.missingNonce nonce nonces)
      else checkNoncesFromBack nonces outMsgsDetails noncesIter
  | _, _ => .ok ()

/-- `validate_out_msgs_details`: no more details than nonces, and the
    details' nonces are those at the end of the range.  Nonces missing from
    the beginning of the range, pruned at the source, are only logged. -/
def validateOutMsgsDetails (outMsgsDetails : List OutboundMessageDetails)
    (nonces : RangeInclusive) : Except (SubstrateError E) Unit :=
  if outMsgsDetails.length > noncesCount nonces then .error .moreMessagesThanRequested
  -- the last nonce missing: the loop does not check it
  else if outMsgsDetails.isEmpty ∧ nonces.start ≤ nonces.end then
    .error (.missingNonce nonces.end nonces)
  else
    checkNoncesFromBack nonces outMsgsDetails.reverse
      (List.range' nonces.start (noncesCount nonces)).reverse

/-! ## `split_msgs_to_refine` -/

section Split

variable {α : Type} (encodeMsg : α → List UInt8) (maxBatchSize : ℕ)

/-- `(lane_id, &batch).encoded_size()`: a `LaneId` is four bytes, the batch
    a SCALE sequence of its messages. -/
def encodedSize (batch : List α) : ℕ :=
  4 + (Scale.encodeSeq encodeMsg batch).length

/-- The inner `while` loop of `split_msgs_to_refine`: while the current
    batch's encoding is larger than `max_batch_size`, its last message
    moves to the front of the next batch (`pop`, then `insert(0, msg)`); a
    batch of one message still too large is an error.  `fuel` counts the
    moves left: a batch of `n` messages gives up at most `n - 1`. -/
def popWhileTooLarge : ℕ → List α → List α → Except (SubstrateError E) (List α × List α)
  | 0, currentMsgsBatch, nextMsgsBatch => .ok (currentMsgsBatch, nextMsgsBatch)
  | fuel + 1, currentMsgsBatch, nextMsgsBatch =>
      if encodedSize encodeMsg currentMsgsBatch > maxBatchSize then
        if currentMsgsBatch.length ≤ 1 then .error (.singleMessageTooLarge maxBatchSize)
        else
          popWhileTooLarge fuel currentMsgsBatch.dropLast
            (currentMsgsBatch.getLast?.toList ++ nextMsgsBatch)
      else .ok (currentMsgsBatch, nextMsgsBatch)

/-- The outer `while` loop of `split_msgs_to_refine`: the batches made so
    far and the messages left.  Each pass makes a batch of at least one
    message, so `fuel`, the number of messages left, is enough. -/
def splitLoop : ℕ → List (List α) → List α → Except (SubstrateError E) (List (List α))
  | 0, batches, _ => .ok batches
  | fuel + 1, batches, currentMsgsBatch =>
      if currentMsgsBatch.isEmpty then .ok batches
      else
        match popWhileTooLarge encodeMsg maxBatchSize currentMsgsBatch.length currentMsgsBatch [] with
        | .error e => .error e
        | .ok (currentMsgsBatch, nextMsgsBatch) =>
            splitLoop fuel (batches ++ [currentMsgsBatch]) nextMsgsBatch

/-- `split_msgs_to_refine`: the messages, in batches whose encoding fits in
    `max_extrinsic_size` of the target chain. -/
def splitMsgsToRefine (maxExtrinsicSize : ℕ) (msgsToRefine : List α) :
    Except (SubstrateError E) (List (List α)) :=
  splitLoop encodeMsg maxExtrinsicSize msgsToRefine.length [] msgsToRefine

end Split

/-! ## `generated_message_details` -/

/-- An entry of `MessagesToRefine`: a message's payload and the `&mut` to
    its details, as their position in `out_msgs_details` and the details
    there while the batches are made. -/
structure MessageToRefine where
  payload : MessagePayload
  position : ℕ
  details : OutboundMessageDetails
deriving DecidableEq, Repr

/-- The first loop of `generated_message_details`: each message's payload,
    read from the source chain's storage, with a reference to its details;
    `position` is that of the first one. -/
def readMsgsToRefine (messagePayload : ℕ → Except E (Option MessagePayload)) (position : ℕ) :
    List OutboundMessageDetails → Except (SubstrateError E) (List MessageToRefine)
  | [] => .ok []
  | outMsgDetails :: outMsgsDetails =>
      match messagePayload outMsgDetails.nonce with
      | .error e => .error (.client e)
      | .ok none => .error (.messageIsMissing outMsgDetails.nonce)
      | .ok (some msgPayload) =>
          match readMsgsToRefine messagePayload (position + 1) outMsgsDetails with
          | .error e => .error e
          | .ok msgsToRefine => .ok (⟨msgPayload, position, outMsgDetails⟩ :: msgsToRefine)

/-- `out_msg_details.dispatch_weight = in_msg_details.dispatch_weight`. -/
def OutboundMessageDetails.refine (outMsgDetails : OutboundMessageDetails)
    (inMsgDetails : InboundMessageDetails) : OutboundMessageDetails :=
  { outMsgDetails with dispatchWeight := inMsgDetails.dispatchWeight }

/-- The zip over a batch and the target's answers: each answer's dispatch
    weight is written to the details its message points at. -/
def refineWeights : List OutboundMessageDetails → List MessageToRefine →
    List InboundMessageDetails → List OutboundMessageDetails
  | outMsgsDetails, msgToRefine :: msgsToRefineBatch, inMsgDetails :: inMsgsDetails =>
      refineWeights
        (outMsgsDetails.modify msgToRefine.position fun outMsgDetails =>
          outMsgDetails.refine inMsgDetails)
        msgsToRefineBatch inMsgsDetails
  | outMsgsDetails, _, _ => outMsgsDetails

/-- The second loop of `generated_message_details`: the target chain's
    details of each batch, which must be one for each message, refine the
    weights. -/
def refineBatches
    (fromChainMessageDetails :
      List (MessagePayload × OutboundMessageDetails) → Except E (List InboundMessageDetails))
    (outMsgsDetails : List OutboundMessageDetails) :
    List (List MessageToRefine) → Except (SubstrateError E) (List OutboundMessageDetails)
  | [] => .ok outMsgsDetails
  | msgsToRefineBatch :: batches =>
      match fromChainMessageDetails (msgsToRefineBatch.map fun msg => (msg.payload, msg.details)) with
      | .error e => .error (.client e)
      | .ok inMsgsDetails =>
          if inMsgsDetails.length ≠ msgsToRefineBatch.length then
            .error (.unexpectedEntriesCount inMsgsDetails.length msgsToRefineBatch.length)
          else
            refineBatches fromChainMessageDetails
              (refineWeights outMsgsDetails msgsToRefineBatch inMsgsDetails) batches

end MessagesSource

namespace MessageRace.MessageDetailsMap

variable {B : Type}

/-- `MessageDetailsMap::new()`. -/
def new : MessageDetailsMap B :=
  ⟨[], List.Pairwise.nil⟩

/-- `BTreeMap::insert`. -/
def insert (m : MessageDetailsMap B) (nonce : ℕ) (details : MessageDetails B) :
    MessageDetailsMap B :=
  ⟨SortedMap.insert nonce details m.entries, SortedMap.sorted_insert nonce details m.sorted⟩

end MessageRace.MessageDetailsMap

namespace MessagesSource

open MessageRace RuntimeCommon

variable {E B : Type}

/-- `SubstrateMessagesSource::generated_message_details` at a source
    header: the details of the range's messages the source chain reports,
    validated, with the dispatch weights the target chain computes for
    them.  `encodeMsg` is the SCALE encoding of a payload with its details;
    every reward is `Zero::zero()`. -/
def generatedMessageDetails [Zero B] (encodeMsg : MessagePayload × OutboundMessageDetails → List UInt8)
    (maxExtrinsicSize : ℕ) (toChainMessageDetails : Except E (List OutboundMessageDetails))
    (messagePayload : ℕ → Except E (Option MessagePayload))
    (fromChainMessageDetails :
      List (MessagePayload × OutboundMessageDetails) → Except E (List InboundMessageDetails))
    (nonces : RangeInclusive) : Except (SubstrateError E) (MessageDetailsMap B) :=
  match toChainMessageDetails with
  | .error e => .error (.client e)
  | .ok outMsgsDetails =>
      match validateOutMsgsDetails outMsgsDetails nonces with
      | .error e => .error e
      | .ok () =>
          match readMsgsToRefine messagePayload 0 outMsgsDetails with
          | .error e => .error e
          | .ok msgsToRefine =>
              match splitMsgsToRefine (fun msg : MessageToRefine => encodeMsg (msg.payload, msg.details))
                  maxExtrinsicSize msgsToRefine with
              | .error e => .error e
              | .ok batches =>
                  match refineBatches fromChainMessageDetails outMsgsDetails batches with
                  | .error e => .error e
                  | .ok outMsgsDetails =>
                      .ok (outMsgsDetails.foldl (fun msgsDetailsMap outMsgDetails =>
                        msgsDetailsMap.insert outMsgDetails.nonce
                          ⟨outMsgDetails.dispatchWeight, outMsgDetails.size, 0⟩) .new)

end MessagesSource

end ParityBridge
