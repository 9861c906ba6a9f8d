import ParityBridge.Relay.OnDemandParachains

/-! # The on-demand parachains relay — requests that never go back, proofs on live state

    Two properties of the relay's choices, over any answers of the chains'
    clients.

    The route:

    * a round that ends in `RelayingRelayHeader n` has seen the target's
      relay header below `n` (`selectHeadersToRelay_relayingRelayHeader`):
      a fresh request is the source's best relay header, past the target's,
      and a kept one is still awaited;
    * so, while the target's relay header only advances, each round keeps
      `RequestsBelow` (the last request is either awaited or already at the
      target), and the relay headers asked for over a run never go back
      (`relay_header_requests_never_go_back`);
    * `select_headers_to_prove` answers a parachain header at least the
      required one, the one the source reports at the relay header it picks,
      which is the target's relay header only while the source's state at it
      is not ancient (`selectHeadersToProve_eq_ok`,
      `select_headers_to_prove_sound`). -/

namespace ParityBridge

namespace OnDemandParachains

variable {PH RH E : Type}

/-! ## `select_headers_to_relay` over runs -/

/-- The regular process asks for a relay header only past the target's,
    and then for the source's best. -/
theorem selectRegular_relayingRelayHeader {data : RelayData PH} {relayHeaderAtTarget n : ℕ}
    (h : selectRegular data relayHeaderAtTarget = .relayingRelayHeader n) :
    relayHeaderAtTarget < n ∧ n = data.relayHeaderAtSource := by
  unfold selectRegular at h
  cases hsrc : data.paraHeaderAtSource with
  | none =>
      rw [hsrc] at h
      cases h
  | some paraHeaderAtSource =>
      rw [hsrc] at h
      dsimp only at h
      split_ifs at h with hsatisfied hunavailable hbehind
      -- only a relay header behind the source's is asked for
      cases h
      exact ⟨hbehind, rfl⟩

/-- **A REQUEST IS AHEAD OF THE TARGET.** A round that ends in
    `RelayingRelayHeader n` has read a relay header at the target below
    `n`, and `n` is the source's best or the request it already waits
    for. -/
theorem selectHeadersToRelay_relayingRelayHeader {data : RelayData PH} {state : RelayState PH}
    {n : ℕ} (h : selectHeadersToRelay data state = .relayingRelayHeader n) :
    ∃ relayHeaderAtTarget, data.relayHeaderAtTarget = some relayHeaderAtTarget ∧
      relayHeaderAtTarget < n ∧ (n = data.relayHeaderAtSource ∨ state = .relayingRelayHeader n) := by
  unfold selectHeadersToRelay at h
  split at h
  · cases h
  · rename_i relayHeaderAtTarget hat
    refine ⟨relayHeaderAtTarget, hat, ?_⟩
    -- the state either keeps waiting, or hands over to the regular process
    have hregular : selectRegular data relayHeaderAtTarget = .relayingRelayHeader n →
        relayHeaderAtTarget < n ∧ (n = data.relayHeaderAtSource ∨ state = .relayingRelayHeader n) :=
      fun hsel => ⟨(selectRegular_relayingRelayHeader hsel).1,
        .inl (selectRegular_relayingRelayHeader hsel).2⟩
    split at h
    · rename_i relayHeaderNumber
      split at h
      · rename_i hwait
        cases h
        exact ⟨hwait, .inr rfl⟩
      · split at h
        · cases h
        · exact hregular h
    · split at h
      · cases h
      · exact hregular h
    · exact hregular h

/-- The target's best relay header is read at every round and never goes
    back from `floor`: its GRANDPA pallet is initialized, and finality only
    advances. -/
def targetRelayHeaderGrows (floor : ℕ) : List (RelayData PH) → Bool
  | [] => true
  | data :: rest =>
      match data.relayHeaderAtTarget with
      | some relayHeaderAtTarget =>
          decide (floor ≤ relayHeaderAtTarget) && targetRelayHeaderGrows relayHeaderAtTarget rest
      | none => false

/-- What `background_task` keeps between rounds, with the last relay header
    it asked for and the target's relay header of the last round: in
    `RelayingRelayHeader` it waits for the last request, in any other state
    the target already has it. -/
def RequestsBelow (lastRequest floor : ℕ) : RelayState PH → Prop
  | .relayingRelayHeader n => n = lastRequest
  | _ => lastRequest ≤ floor

/-- A round in `RelayingRelayHeader n` keeps waiting while the target's
    relay header is below `n`. -/
theorem selectHeadersToRelay_wait {data : RelayData PH} {relayHeaderAtTarget n : ℕ}
    (hat : data.relayHeaderAtTarget = some relayHeaderAtTarget) (hbelow : relayHeaderAtTarget < n) :
    selectHeadersToRelay data (.relayingRelayHeader n) = .relayingRelayHeader n := by
  unfold selectHeadersToRelay
  rw [hat]
  dsimp only
  rw [if_pos hbelow]

/-- **NO REQUEST GOES BACK.** A round from a state that keeps
    `RequestsBelow`, with the target's relay header not gone back, asks for
    no relay header below the last request. -/
theorem RequestsBelow.request_le {lastRequest floor relayHeaderAtTarget n : ℕ}
    {state : RelayState PH} (hstate : RequestsBelow lastRequest floor state) {data : RelayData PH}
    (hat : data.relayHeaderAtTarget = some relayHeaderAtTarget) (hgrow : floor ≤ relayHeaderAtTarget)
    (hsel : selectHeadersToRelay data state = .relayingRelayHeader n) : lastRequest ≤ n := by
  obtain ⟨r, hr, hlt, -⟩ := selectHeadersToRelay_relayingRelayHeader hsel
  rw [hat] at hr
  cases hr
  cases state with
  | relayingRelayHeader m =>
      change m = lastRequest at hstate
      subst hstate
      -- still waiting: the same request; else the target reached the last one
      by_cases hwait : relayHeaderAtTarget < m
      · rw [selectHeadersToRelay_wait hat hwait] at hsel
        cases hsel
        exact Nat.le_refl _
      · omega
  | relayingParaHeader _ =>
      change lastRequest ≤ floor at hstate
      omega
  | idle =>
      change lastRequest ≤ floor at hstate
      omega

/-- A round that asks for no relay header leaves the target past the last
    request. -/
theorem RequestsBelow.le_of_no_request {lastRequest floor relayHeaderAtTarget : ℕ}
    {state : RelayState PH} (hstate : RequestsBelow lastRequest floor state) {data : RelayData PH}
    (hat : data.relayHeaderAtTarget = some relayHeaderAtTarget) (hgrow : floor ≤ relayHeaderAtTarget)
    (hnone : ∀ n, selectHeadersToRelay data state ≠ .relayingRelayHeader n) :
    lastRequest ≤ relayHeaderAtTarget := by
  cases state with
  | relayingRelayHeader m =>
      change m = lastRequest at hstate
      subst hstate
      -- a round still waiting would ask again
      by_cases hwait : relayHeaderAtTarget < m
      · exact absurd (selectHeadersToRelay_wait hat hwait) (hnone m)
      · omega
  | relayingParaHeader _ =>
      change lastRequest ≤ floor at hstate
      omega
  | idle =>
      change lastRequest ≤ floor at hstate
      omega

/-- Over a run of rounds from a state that keeps `RequestsBelow`, while
    the target's relay header only advances, the requests do not go below
    the last one nor back among themselves. -/
theorem RequestsBelow.run :
    ∀ (datas : List (RelayData PH)) (state : RelayState PH) (lastRequest floor : ℕ),
      RequestsBelow lastRequest floor state → targetRelayHeaderGrows floor datas = true →
        (lastRequest :: relayHeaderRequests state datas).Pairwise (· ≤ ·) := by
  intro datas
  induction datas with
  | nil => intro _ _ _ _ _; exact List.pairwise_singleton _ _
  | cons data rest ih =>
      intro state lastRequest floor hstate hgrows
      -- the round reads the target's relay header, not below `floor`
      unfold targetRelayHeaderGrows at hgrows
      cases hat : data.relayHeaderAtTarget with
      | none =>
          rw [hat] at hgrows
          cases hgrows
      | some relayHeaderAtTarget =>
          rw [hat, Bool.and_eq_true, decide_eq_true_iff] at hgrows
          unfold relayHeaderRequests
          cases hsel : selectHeadersToRelay data state with
          | relayingRelayHeader n =>
              have hle := hstate.request_le hat hgrows.1 hsel
              have hrest := ih (.relayingRelayHeader n) n relayHeaderAtTarget rfl hgrows.2
              refine List.Pairwise.cons (fun x hx => ?_) hrest
              -- every later request is past `n`, itself past the last request
              rcases List.mem_cons.mp hx with rfl | hx
              · exact hle
              · exact Nat.le_trans hle (List.rel_of_pairwise_cons hrest hx)
          | relayingParaHeader paraHeader =>
              have hle := hstate.le_of_no_request hat hgrows.1 (by rw [hsel]; intro n hn; cases hn)
              exact ih (.relayingParaHeader paraHeader) lastRequest relayHeaderAtTarget hle hgrows.2
          | idle =>
              have hle := hstate.le_of_no_request hat hgrows.1 (by rw [hsel]; intro n hn; cases hn)
              exact ih .idle lastRequest relayHeaderAtTarget hle hgrows.2

/-- **RELAY HEADER REQUESTS NEVER GO BACK.** Over any run of rounds from
    `Idle` in which the target's best relay header is known and only
    advances, the relay headers `background_task` asks the on-demand
    headers relay for never decrease. -/
theorem relay_header_requests_never_go_back (datas : List (RelayData PH))
    (hgrows : targetRelayHeaderGrows 0 datas = true) :
    (relayHeaderRequests .idle datas).Pairwise (· ≤ ·) :=
  (List.pairwise_cons.mp
    (RequestsBelow.run datas .idle 0 0 (Nat.le_refl 0) hgrows)).2

/-- Three rounds: the relay header `10` is asked for and awaited, then the
    parachain header at it is relayed. -/
def threeRounds : List (RelayData ℕ) :=
  [⟨5, some 1, some (7, 70), none, 10, some 4⟩, ⟨5, some 1, some (7, 70), none, 10, some 6⟩,
    ⟨5, some 1, some (7, 70), some (6, 60), 12, some 10⟩]

theorem relay_header_requests_never_go_back_on_three_rounds :
    targetRelayHeaderGrows 0 threeRounds = true ∧
      (relayHeaderRequests .idle threeRounds).Pairwise (· ≤ ·) :=
  ⟨by decide, relay_header_requests_never_go_back threeRounds (by decide)⟩

/-! ## `select_headers_to_prove` -/

/-- **PROVE INVERSION.** A selection means the three client calls answered,
    the source's best relay header holds a parachain header at least the
    required one, and either the target's relay header, not ancient, holds
    one too (no relay header to prove), or the source's best relay header is
    to be proved. -/
theorem selectHeadersToProve_eq_ok {env : SelectHeadersToProveEnvironment RH PH E}
    {required : ℕ} {need : Bool} {relay : ℕ × RH} {para : ℕ × PH}
    (h : selectHeadersToProve env required = .ok (need, relay, para)) :
    ∃ src tgt best, env.bestFinalizedRelayBlockAtSource = .ok src ∧
      env.bestFinalizedRelayBlockAtTarget = .ok tgt ∧
      env.bestFinalizedParaBlockAtSource src = .ok (some best) ∧ required ≤ best.1 ∧
      ((need = false ∧ relay = tgt ∧ isAncientBlock tgt.1 src.1 = false ∧
          env.bestFinalizedParaBlockAtSource tgt = .ok (some para) ∧ required ≤ para.1) ∨
        (need = true ∧ relay = src ∧ para = best)) := by
  unfold selectHeadersToProve at h
  -- peel the calls in the order the code makes them
  cases hsrc : env.bestFinalizedRelayBlockAtSource with
  | error e => simp [hsrc, Except.mapError, bind, Except.bind] at h
  | ok src =>
  cases htgt : env.bestFinalizedRelayBlockAtTarget with
  | error e => simp [hsrc, htgt, Except.mapError, bind, Except.bind] at h
  | ok tgt =>
  cases hbest : env.bestFinalizedParaBlockAtSource src with
  | error e => simp [hsrc, htgt, hbest, Except.mapError, bind, Except.bind] at h
  | ok best? =>
  cases best? with
  | none =>
      simp [hsrc, htgt, hbest, Except.mapError, bind, Except.bind, throw, throwThe,
        MonadExceptOf.throw] at h
  | some best =>
  by_cases hreq : required ≤ best.1
  · refine ⟨src, tgt, best, rfl, rfl, hbest, hreq, ?_⟩
    by_cases hanc : isAncientBlock tgt.1 src.1 = false
    · -- the target's relay header is recent: ask the source at it
      cases hpara : env.bestFinalizedParaBlockAtSource tgt with
      | error e =>
          simp [hsrc, htgt, hbest, hpara, hreq, hanc, Option.filter, Except.mapError, bind,
            Except.bind, pure, Except.pure] at h
      | ok p? =>
          simp [hsrc, htgt, hbest, hpara, hreq, hanc, Option.filter, Except.mapError, bind,
            Except.bind, pure, Except.pure] at h
          cases p? with
          | none =>
              simp only [Option.map_none, Option.getD_none, Prod.mk.injEq] at h
              obtain ⟨rfl, rfl, rfl⟩ := h
              exact .inr ⟨rfl, rfl, rfl⟩
          | some p =>
              by_cases hp : required ≤ p.1
              · simp only [hp, if_true, Option.map_some, Option.getD_some, Prod.mk.injEq] at h
                obtain ⟨rfl, rfl, rfl⟩ := h
                exact .inl ⟨rfl, rfl, hanc, rfl, hp⟩
              · simp only [hp, if_false, Option.map_none, Option.getD_none, Prod.mk.injEq] at h
                obtain ⟨rfl, rfl, rfl⟩ := h
                exact .inr ⟨rfl, rfl, rfl⟩
    · simp [hsrc, htgt, hbest, hreq, hanc, Option.filter, Except.mapError, bind, Except.bind, pure,
        Except.pure] at h
      obtain ⟨rfl, rfl, rfl⟩ := h
      exact .inr ⟨rfl, rfl, rfl⟩
  · simp [hsrc, htgt, hbest, hreq, Option.filter, Except.mapError, bind, Except.bind, throw,
      throwThe, MonadExceptOf.throw] at h

/-- **PROOFS ON LIVE STATE.** Whatever the clients answer, a selection of
    `select_headers_to_prove` is a parachain header at least the required
    one, the one the source reports at the selected relay header, and that
    relay header is the source's best, to be proved, or the target's best,
    fewer than `ANCIENT_BLOCK_THRESHOLD` blocks behind the source's. -/
theorem select_headers_to_prove_sound {env : SelectHeadersToProveEnvironment RH PH E}
    {required : ℕ} {need : Bool} {relay : ℕ × RH} {para : ℕ × PH}
    (h : selectHeadersToProve env required = .ok (need, relay, para)) :
    required ≤ para.1 ∧ env.bestFinalizedParaBlockAtSource relay = .ok (some para) ∧
      ((need = true ∧ env.bestFinalizedRelayBlockAtSource = .ok relay) ∨
        (need = false ∧ env.bestFinalizedRelayBlockAtTarget = .ok relay ∧
          ∃ src, env.bestFinalizedRelayBlockAtSource = .ok src ∧
            src.1 - relay.1 < ancientBlockThreshold)) := by
  obtain ⟨src, tgt, best, hsrc, htgt, hbest, hreq, hsel⟩ := selectHeadersToProve_eq_ok h
  rcases hsel with ⟨rfl, rfl, hanc, hpara, hp⟩ | ⟨rfl, rfl, rfl⟩
  · -- the target's relay header: its state is not ancient at the source
    refine ⟨hp, hpara, .inr ⟨rfl, htgt, src, hsrc, ?_⟩⟩
    unfold isAncientBlock at hanc
    simpa using hanc
  · exact ⟨hreq, hbest, .inl ⟨rfl, hsrc⟩⟩

/-- A source two relay blocks ahead of the target, both holding parachain
    header `7`. -/
def nearEnvironment : SelectHeadersToProveEnvironment ℕ ℕ Unit :=
  ⟨2000, .ok (12, 120), .ok (10, 100), fun _ => .ok (some (7, 70))⟩

theorem select_headers_to_prove_sound_on_near_environment :
    selectHeadersToProve nearEnvironment 5 = .ok (false, (10, 100), (7, 70)) ∧
      5 ≤ (7, 70).1 ∧ nearEnvironment.bestFinalizedParaBlockAtSource (10, 100) = .ok (some (7, 70)) ∧
      ((false = true ∧ nearEnvironment.bestFinalizedRelayBlockAtSource = .ok (10, 100)) ∨
        (false = false ∧ nearEnvironment.bestFinalizedRelayBlockAtTarget = .ok (10, 100) ∧
          ∃ src, nearEnvironment.bestFinalizedRelayBlockAtSource = .ok src ∧
            src.1 - (10, 100).1 < ancientBlockThreshold)) :=
  ⟨by decide, select_headers_to_prove_sound (by decide)⟩

end OnDemandParachains

end ParityBridge
