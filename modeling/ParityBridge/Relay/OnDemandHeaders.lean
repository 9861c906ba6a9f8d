import Mathlib.Data.Nat.Basic
import Mathlib.Order.Basic

/-! # The on-demand headers relay — one required header number, two writers

    `OnDemandHeadersRelay` keeps one number behind a mutex: the source
    header the finality relay must sync up to.  Dependent relays (the
    parachains relay, the messages relay) raise it with
    `require_more_headers`.  The background task raises it too: at each
    round it scans the source headers the target is missing for the first
    one that schedules an authorities change (a mandatory header), and
    asks for that one.  The finality relay's source reads it as a cap
    (`best_finalized_block_number`).

    The background task's round has two parts around the mutex: the scan
    (`find_mandatory_header_in_range`, which may take a while), then the
    lock in `relay_mandatory_header_from_range`, which reads the number
    again before it raises it.  Requests of the dependants may come between
    the two, so the model makes them two events of the system (`Event`),
    and a run is any list of events: any interleaving of requests and
    rounds.

    The clients' answers are what they return, each call an `Except`.  The
    sleep, the reconnects, the restarts of the finality relay, the metrics
    and the logs are left out. -/

namespace ParityBridge

namespace OnDemandHeaders

variable {E H : Type}

/-- `require_more_headers`: the required header number only moves up. -/
def requireMoreHeaders (requiredHeaderNumber requiredHeader : ℕ) : ℕ :=
  if requiredHeader > requiredHeaderNumber then requiredHeader else requiredHeaderNumber

/-- The loop of `find_mandatory_header_in_range` from `current`, with
    `left` headers of the range still to read. -/
def findMandatoryHeaderFrom (headerByNumber : ℕ → Except E H) (schedulesAuthoritiesChange : H → Bool)
    (current : ℕ) : ℕ → Except E (Option ℕ)
  | 0 => pure none
  | left + 1 => do
      let header ← headerByNumber current
      if schedulesAuthoritiesChange header then pure (some current)
      else findMandatoryHeaderFrom headerByNumber schedulesAuthoritiesChange (current + 1) left

/-- `find_mandatory_header_in_range`: the first header of the inclusive
    range that schedules an authorities change, reading the headers in
    order; the loop `while current <= range.1` reads `range.1 + 1 - range.0`
    of them. -/
def findMandatoryHeaderInRange (headerByNumber : ℕ → Except E H)
    (schedulesAuthoritiesChange : H → Bool) (range : ℕ × ℕ) : Except E (Option ℕ) :=
  findMandatoryHeaderFrom headerByNumber schedulesAuthoritiesChange range.1 (range.2 + 1 - range.1)

/-- `mandatory_headers_scan_range`: the inclusive range of source headers
    to scan for a mandatory header, if the relay is not already asked for
    as many headers as the source has. -/
def mandatoryHeadersScanRange (bestFinalizedSourceHeaderAtSource bestFinalizedSourceHeaderAtTarget :
    Option ℕ) (requiredHeaderNumber : ℕ) : Option (ℕ × ℕ) :=
  -- an unread target is taken to be at the required header, an unread source at the target
  let bestFinalizedSourceHeaderAtTarget := bestFinalizedSourceHeaderAtTarget.getD requiredHeaderNumber
  let bestFinalizedSourceHeaderAtSource :=
    bestFinalizedSourceHeaderAtSource.getD bestFinalizedSourceHeaderAtTarget
  if requiredHeaderNumber ≥ bestFinalizedSourceHeaderAtSource then none
  else some (bestFinalizedSourceHeaderAtTarget + 1, bestFinalizedSourceHeaderAtSource)

/-- The part of `relay_mandatory_header_from_range` after the search:
    whether the header found is asked for, and the required header number
    then.  It runs under the lock, on the number as it is at that time. -/
def raiseRequiredHeaderNumber (requiredHeaderNumber : ℕ) : Option ℕ → Bool × ℕ
  | none => (false, requiredHeaderNumber)
  | some mandatorySourceHeaderNumber =>
      if requiredHeaderNumber ≥ mandatorySourceHeaderNumber then (false, requiredHeaderNumber)
      else (true, mandatorySourceHeaderNumber)

/-- `best_finalized_block_number` of `SubstrateFinalitySource`: the
    source's best finalized header number, never past
    `maximal_header_number`. -/
def bestFinalizedBlockNumber (onChainBestFinalizedBlockNumber : Except E ℕ)
    (maximalHeaderNumber : Option ℕ) : Except E ℕ := do
  let finalizedHeaderNumber ← onChainBestFinalizedBlockNumber
  match maximalHeaderNumber with
  | some maximalHeaderNumber =>
      pure (if finalizedHeaderNumber > maximalHeaderNumber then maximalHeaderNumber
        else finalizedHeaderNumber)
  | none => pure finalizedHeaderNumber

/-- `matches!(result, Err(ref e) if e.is_connection_error())`. -/
def failedWithConnectionError (isConnectionError : E → Bool) : Except E ℕ → Bool
  | .error e => isConnectionError e
  | .ok _ => false

/-- The shared required header number and the background task's own
    state: the range end it last found no mandatory header to ask for, and
    the result of a scan not yet taken to the lock, with its range's end. -/
structure HeadersRelay (E : Type) where
  requiredHeaderNumber : ℕ
  latestNonMandatoryAtSource : ℕ
  scanned : Option (Except E (Option ℕ) × ℕ)

/-- The state `OnDemandHeadersRelay::new` starts its task in. -/
def HeadersRelay.new : HeadersRelay E := ⟨0, 0, none⟩

/-- What happens to the shared number: a dependant's request, the
    background task's scan with what its clients answer, and the
    background task's lock. -/
inductive Event (E H : Type) where
  | requireMoreHeaders (requiredHeader : ℕ)
  | scanMandatoryHeaders (bestFinalizedSourceHeaderAtSource bestFinalizedSourceHeaderAtTarget : Except E ℕ)
      (headerByNumber : ℕ → Except E H)
  | relayMandatoryHeader

/-- One event of the system.  A scan reads both clients, reconnects and
    starts over on a connection error, and else searches its range from the
    last range end with no mandatory header to ask for; the lock then asks
    for the header found or remembers the range's end. -/
def HeadersRelay.step (isConnectionError : E → Bool) (schedulesAuthoritiesChange : H → Bool)
    (relay : HeadersRelay E) : Event E H → HeadersRelay E
  | .requireMoreHeaders requiredHeader =>
      { relay with requiredHeaderNumber := requireMoreHeaders relay.requiredHeaderNumber requiredHeader }
  | .scanMandatoryHeaders bestFinalizedSourceHeaderAtSource bestFinalizedSourceHeaderAtTarget
      headerByNumber =>
      match relay.scanned with
      -- the task is still on its way to the lock
      | some _ => relay
      | none =>
          if failedWithConnectionError isConnectionError bestFinalizedSourceHeaderAtSource ||
              failedWithConnectionError isConnectionError bestFinalizedSourceHeaderAtTarget then relay
          else
            match mandatoryHeadersScanRange bestFinalizedSourceHeaderAtSource.toOption
                bestFinalizedSourceHeaderAtTarget.toOption relay.requiredHeaderNumber with
            | none => relay
            | some mandatoryScanRange =>
                { relay with
                  scanned := some (findMandatoryHeaderInRange headerByNumber schedulesAuthoritiesChange
                    (max mandatoryScanRange.1 relay.latestNonMandatoryAtSource, mandatoryScanRange.2),
                    mandatoryScanRange.2) }
  | .relayMandatoryHeader =>
      match relay.scanned with
      | none => relay
      -- a failed scan changes nothing but the task's place
      | some (.error _, _) => { relay with scanned := none }
      | some (.ok mandatorySourceHeaderNumber, rangeEnd) =>
          match raiseRequiredHeaderNumber relay.requiredHeaderNumber mandatorySourceHeaderNumber with
          | (true, requiredHeaderNumber) => { relay with requiredHeaderNumber, scanned := none }
          | (false, _) => { relay with latestNonMandatoryAtSource := rangeEnd, scanned := none }

end OnDemandHeaders

end ParityBridge
