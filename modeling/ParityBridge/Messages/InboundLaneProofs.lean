import Mathlib.Data.List.TakeWhile
import ParityBridge.Messages.InboundLane

/-! # Inbound lane proofs — what each call can do, and what a run keeps

    One inversion lemma per call says everything the call can do; every
    invariant below is then a short case analysis over it.  The invariants
    are the relayer-queue shape (`QueueInvariant`), the dispatch log
    (`DispatchLog`) and the two limits (`WithinLimits`), each proved for
    every lane reachable from the default data by `Reach.Reachable.invariant`;
    no run moves the last delivered nonce back (`inbound_lane_over_runs`). -/

namespace ParityBridge

namespace InboundLane

open IntervalChain

variable {R A P D : Type}

/-! ## The queue updates -/

section Queue

variable (c : ℕ) (l : List (UnrewardedRelayer R))

@[simp] theorem trimFront_nil : trimFront c ([] : List (UnrewardedRelayer R)) = [] := rfl

theorem trimFront_cons (e : UnrewardedRelayer R) (rest : List (UnrewardedRelayer R)) :
    trimFront c (e :: rest) =
      if e.messages.begin < c then
        { e with messages := { e.messages with begin := c + 1 } } :: rest
      else e :: rest := rfl

theorem length_trimFront : (trimFront c l).length = l.length := by
  cases l with
  | nil => rfl
  | cons e rest =>
      rw [trimFront_cons]
      split <;> rfl

/-- The trim moves a front start only, so every end stays. -/
theorem map_end_trimFront :
    (trimFront c l).map (fun e => e.messages.«end») = l.map (fun e => e.messages.«end») := by
  cases l with
  | nil => rfl
  | cons e rest =>
      rw [trimFront_cons]
      split <;> rfl

theorem getLast?_end_trimFront :
    (trimFront c l).getLast?.map (fun e => e.messages.«end») =
      l.getLast?.map (fun e => e.messages.«end») := by
  rw [← List.getLast?_map, ← List.getLast?_map, map_end_trimFront]

end Queue

/-- The end of the back entry is the lane's last delivered nonce. -/
theorem end_eq_lastDeliveredNonce {d : InboundLaneData R} {e : UnrewardedRelayer R}
    (he : d.relayers.getLast? = some e) : e.messages.«end» = d.lastDeliveredNonce := by
  simp [InboundLaneData.lastDeliveredNonce, he]

/-- Everything the queue update of `receive_message` can do: widen the back
    entry of the same relayer, or push a fresh one-nonce entry. -/
theorem noteDelivery_cases [DecidableEq R] (l : List (UnrewardedRelayer R)) (r : R)
    (nonce : ℕ) :
    (∃ e, l.getLast? = some e ∧ e.relayer = r ∧
      noteDelivery l r nonce =
        l.dropLast ++ [{ e with messages := e.messages.noteDispatchedMessage }]) ∨
    ((∀ e ∈ l.getLast?, e.relayer ≠ r) ∧
      noteDelivery l r nonce = l ++ [⟨r, DeliveredMessages.new nonce⟩]) := by
  cases hlast : l.getLast? with
  | none =>
      refine .inr ⟨fun e he => (nomatch he), ?_⟩
      simp [noteDelivery, hlast]
  | some e =>
      by_cases hr : e.relayer = r
      · exact .inl ⟨e, rfl, hr, by simp [noteDelivery, hlast, hr]⟩
      · refine .inr ⟨?_, by simp [noteDelivery, hlast, hr]⟩
        intro x hx
        rw [Option.mem_some_iff] at hx
        rw [← hx]
        exact hr

/-- The queue `receive_message` leaves ends at the delivered nonce. -/
theorem lastDeliveredNonce_noteDelivery [DecidableEq R] (d : InboundLaneData R) (r : R)
    (nonce : ℕ) (hnonce : nonce = d.lastDeliveredNonce + 1) :
    InboundLaneData.lastDeliveredNonce ⟨noteDelivery d.relayers r nonce, d.lastConfirmedNonce⟩ =
      nonce := by
  rcases noteDelivery_cases d.relayers r nonce with ⟨e, hlast, -, heq⟩ | ⟨-, heq⟩
  · have hend := end_eq_lastDeliveredNonce hlast
    rw [heq, InboundLaneData.lastDeliveredNonce_concat,
      DeliveredMessages.noteDispatchedMessage_end]
    omega
  · rw [heq, InboundLaneData.lastDeliveredNonce_concat, DeliveredMessages.new_end]

theorem length_noteDelivery_le [DecidableEq R] (l : List (UnrewardedRelayer R)) (r : R)
    (nonce : ℕ) : (noteDelivery l r nonce).length ≤ l.length + 1 := by
  rcases noteDelivery_cases l r nonce with ⟨e, -, -, heq⟩ | ⟨-, heq⟩
  · rw [heq, List.length_append, List.length_dropLast, List.length_singleton]
    omega
  · rw [heq, List.length_append, List.length_singleton]

/-- `receive_message` keeps the queue consecutive when the nonce follows the
    back entry. -/
theorem consecutive_noteDelivery [DecidableEq R] {l : List (UnrewardedRelayer R)} {r : R}
    {nonce : ℕ} (h : RelayersConsecutive l)
    (hnext : ∀ e ∈ l.getLast?, nonce = e.messages.«end» + 1) :
    RelayersConsecutive (noteDelivery l r nonce) := by
  rcases noteDelivery_cases l r nonce with ⟨e, hlast, -, heq⟩ | ⟨-, heq⟩
  · -- the back entry is widened by one nonce
    rw [heq]
    rw [← List.dropLast_append_getLast? e hlast] at h
    exact h.widen_last rfl (by simp)
  · rw [heq]
    refine h.concat le_rfl ?_
    intro x hx
    exact hnext x hx

/-- The front entry after `receive_message`: the new entry when the queue was
    empty, else the old front with the same start and an end no earlier. -/
theorem head?_noteDelivery [DecidableEq R] (l : List (UnrewardedRelayer R)) (r : R)
    (nonce : ℕ) :
    ∀ e ∈ (noteDelivery l r nonce).head?,
      (l = [] ∧ e.messages = DeliveredMessages.new nonce) ∨
      (∃ e₀ ∈ l.head?, e.messages.begin = e₀.messages.begin ∧
        e₀.messages.«end» ≤ e.messages.«end») := by
  intro e he
  cases l with
  | nil =>
      left
      rcases noteDelivery_cases [] r nonce with ⟨e', hlast, -, -⟩ | ⟨-, heq⟩
      · exact nomatch hlast
      · rw [heq, List.nil_append, List.head?_cons, Option.mem_some_iff] at he
        exact ⟨rfl, by rw [← he]⟩
  | cons a l' =>
      right
      refine ⟨a, rfl, ?_⟩
      rcases noteDelivery_cases (a :: l') r nonce with ⟨b, hlast, -, heq⟩ | ⟨-, heq⟩
      · rw [heq] at he
        cases l' with
        | nil =>
            -- the single entry is both front and back, and is widened
            rw [List.getLast?_singleton, Option.some.injEq] at hlast
            subst hlast
            rw [List.dropLast_singleton, List.nil_append, List.head?_cons,
              Option.mem_some_iff] at he
            rw [← he]
            exact ⟨rfl, by simp⟩
        | cons a' l' =>
            rw [List.dropLast_cons_cons, List.cons_append, List.head?_cons,
              Option.mem_some_iff] at he
            rw [← he]
            exact ⟨rfl, le_rfl⟩
      · rw [heq, List.cons_append, List.head?_cons, Option.mem_some_iff] at he
        rw [← he]
        exact ⟨rfl, le_rfl⟩

/-! ## What each call can do -/

/-- Everything `receive_state_update` can do: refuse and change nothing, or
    confirm a nonce above the last confirmed and at most the last delivered
    one, popping and trimming the queue. -/
theorem receiveStateUpdate_cases (lane : InboundLane R A P) (o : OutboundLaneData) :
    receiveStateUpdate lane o = (none, lane) ∨
    (lane.data.lastConfirmedNonce < o.latestReceivedNonce ∧
      o.latestReceivedNonce ≤ lane.data.lastDeliveredNonce ∧
      receiveStateUpdate lane o = (some o.latestReceivedNonce, lane.setData
        ⟨trimFront o.latestReceivedNonce (lane.data.relayers.dropWhile
          fun e => e.messages.«end» ≤ o.latestReceivedNonce), o.latestReceivedNonce⟩)) := by
  unfold receiveStateUpdate
  dsimp only
  by_cases hfuture : o.latestReceivedNonce > lane.data.lastDeliveredNonce
  · exact .inl (if_pos hfuture)
  · rw [if_neg hfuture]
    by_cases hold : o.latestReceivedNonce ≤ lane.data.lastConfirmedNonce
    · exact .inl (if_pos hold)
    · rw [if_neg hold]
      exact .inr ⟨by omega, by omega, rfl⟩

/-- Everything `receive_message` can do: refuse with one of its three
    rejections and change nothing, or take exactly the next nonce within both
    limits, dispatch it once and record its relayer. -/
theorem receiveMessage_cases [DecidableEq R] (dispatch : A → DispatchMessage P → D)
    (lane : InboundLane R A P) (r : R) (a : A) (nonce : ℕ) (m : P) :
    ((receiveMessage dispatch lane r a nonce m).1.IsRejection ∧
      (receiveMessage dispatch lane r a nonce m).2 = lane) ∨
    (nonce = lane.data.lastDeliveredNonce + 1 ∧
      lane.data.relayers.length < lane.storage.maxUnrewardedRelayerEntries ∧
      nonce - lane.data.lastConfirmedNonce ≤ lane.storage.maxUnconfirmedMessages ∧
      receiveMessage dispatch lane r a nonce m =
        (.dispatched (dispatch a ⟨⟨lane.storage.id, nonce⟩, m⟩),
          { lane.setData ⟨noteDelivery lane.data.relayers r nonce, lane.data.lastConfirmedNonce⟩ with
            dispatched := lane.dispatched ++ [(a, ⟨⟨lane.storage.id, nonce⟩, m⟩)] })) := by
  unfold receiveMessage
  dsimp only
  by_cases hnonce : nonce ≠ lane.data.lastDeliveredNonce + 1
  · rw [if_pos hnonce]
    exact .inl ⟨.inl rfl, rfl⟩
  · rw [if_neg hnonce]
    by_cases hentries : lane.data.relayers.length ≥ lane.storage.maxUnrewardedRelayerEntries
    · rw [if_pos hentries]
      exact .inl ⟨.inr (.inl rfl), rfl⟩
    · rw [if_neg hentries]
      by_cases hunconfirmed : nonce - lane.data.lastConfirmedNonce > lane.storage.maxUnconfirmedMessages
      · rw [if_pos hunconfirmed]
        exact .inl ⟨.inr (.inr rfl), rfl⟩
      · rw [if_neg hunconfirmed]
        exact .inr ⟨by omega, by omega, by omega, rfl⟩

/-- Everything one call can do to a lane: change nothing, deliver the next
    nonce within both limits and dispatch it, or confirm a nonce above the
    last confirmed and at most the last delivered one. -/
theorem step_cases [DecidableEq R] (dispatch : A → DispatchMessage P → D)
    (lane : InboundLane R A P) (call : Call R A P) :
    step dispatch lane call = lane ∨
    (∃ r a nonce m, nonce = lane.data.lastDeliveredNonce + 1 ∧
      lane.data.relayers.length < lane.storage.maxUnrewardedRelayerEntries ∧
      nonce - lane.data.lastConfirmedNonce ≤ lane.storage.maxUnconfirmedMessages ∧
      step dispatch lane call =
        { lane.setData ⟨noteDelivery lane.data.relayers r nonce, lane.data.lastConfirmedNonce⟩ with
          dispatched := lane.dispatched ++ [(a, ⟨⟨lane.storage.id, nonce⟩, m⟩)] }) ∨
    (∃ c, lane.data.lastConfirmedNonce < c ∧ c ≤ lane.data.lastDeliveredNonce ∧
      step dispatch lane call = lane.setData
        ⟨trimFront c (lane.data.relayers.dropWhile fun e => e.messages.«end» ≤ c), c⟩) := by
  cases call with
  | receiveMessage r a nonce m =>
      rcases receiveMessage_cases dispatch lane r a nonce m with
        ⟨-, hres⟩ | ⟨hn, hentries, hunconfirmed, hres⟩
      · exact .inl hres
      · exact .inr (.inl ⟨r, a, nonce, m, hn, hentries, hunconfirmed, by rw [step, hres]⟩)
  | receiveStateUpdate o =>
      rcases receiveStateUpdate_cases lane o with hres | ⟨hlow, hhigh, hres⟩
      · exact .inl (by rw [step, hres])
      · exact .inr (.inr ⟨o.latestReceivedNonce, hlow, hhigh, by rw [step, hres]⟩)

/-- The limits of a lane are fixed: no call changes them. -/
theorem step_limits [DecidableEq R] (dispatch : A → DispatchMessage P → D)
    (lane : InboundLane R A P) (call : Call R A P) :
    (step dispatch lane call).storage.maxUnrewardedRelayerEntries =
        lane.storage.maxUnrewardedRelayerEntries ∧
      (step dispatch lane call).storage.maxUnconfirmedMessages =
        lane.storage.maxUnconfirmedMessages := by
  rcases step_cases dispatch lane call with h | ⟨_, _, _, _, -, -, -, h⟩ | ⟨_, -, -, h⟩ <;>
    rw [h] <;> exact ⟨rfl, rfl⟩

/-! ## The relayer entries limit -/

/-- A delivery by a relayer other than the back entry's pushes an entry. -/
theorem length_noteDelivery_of_new [DecidableEq R] {l : List (UnrewardedRelayer R)} {r : R}
    (hnew : ∀ e ∈ l.getLast?, e.relayer ≠ r) (nonce : ℕ) :
    (noteDelivery l r nonce).length = l.length + 1 := by
  rcases noteDelivery_cases l r nonce with ⟨e, hlast, hr, -⟩ | ⟨-, heq⟩
  · exact absurd hr (hnew e hlast)
  · rw [heq, List.length_append, List.length_singleton]

/-- The next nonce is refused while the queue holds as many entries as the
    lane allows: the count is checked before the entry is looked up. -/
theorem receiveMessage_of_entries_full [DecidableEq R] (dispatch : A → DispatchMessage P → D)
    (lane : InboundLane R A P) (r : R) (a : A) {nonce : ℕ} (m : P)
    (hnonce : nonce = lane.data.lastDeliveredNonce + 1)
    (hfull : lane.data.relayers.length ≥ lane.storage.maxUnrewardedRelayerEntries) :
    (receiveMessage dispatch lane r a nonce m).1 = .tooManyUnrewardedRelayers := by
  unfold receiveMessage
  dsimp only
  rw [if_neg (not_not_intro hnonce), if_pos hfull]

/-- **ENTRIES LIMIT**: once a delivery by a relayer other than the back
    entry's takes the last entry the lane allows, the lane refuses the next
    nonce, whoever delivers it — the same relayer included. -/
theorem receiveMessage_next_tooManyUnrewardedRelayers [DecidableEq R]
    (dispatch : A → DispatchMessage P → D) (lane : InboundLane R A P) (r : R) (a : A)
    (nonce : ℕ) (m : P) (r' : R) (a' : A) (m' : P)
    (hentries : lane.data.relayers.length + 1 = lane.storage.maxUnrewardedRelayerEntries)
    (hnew : ∀ e ∈ lane.data.relayers.getLast?, e.relayer ≠ r)
    (hdispatched : (receiveMessage dispatch lane r a nonce m).1.isDispatched = true) :
    (receiveMessage dispatch (receiveMessage dispatch lane r a nonce m).2 r' a' (nonce + 1)
      m').1 = .tooManyUnrewardedRelayers := by
  rcases receiveMessage_cases dispatch lane r a nonce m with ⟨hrej, -⟩ | ⟨hnonce, -, -, hres⟩
  · rw [hrej.isDispatched_eq_false] at hdispatched
    exact absurd hdispatched Bool.false_ne_true
  · rw [hres]
    apply receiveMessage_of_entries_full
    · -- the lane now ends at the delivered nonce
      exact congrArg (· + 1) (lastDeliveredNonce_noteDelivery lane.data r nonce hnonce).symm
    · -- and holds one entry more
      show (noteDelivery lane.data.relayers r nonce).length ≥ lane.storage.maxUnrewardedRelayerEntries
      rw [length_noteDelivery_of_new hnew, hentries]

/-! ## The last delivered nonce -/

/-- A confirmation of `c`, above the last confirmed nonce and at most the
    last delivered one, keeps the last delivered nonce. -/
theorem lastDeliveredNonce_confirm (d : InboundLaneData R) {c : ℕ}
    (hlow : d.lastConfirmedNonce < c) (hhigh : c ≤ d.lastDeliveredNonce) :
    InboundLaneData.lastDeliveredNonce
        ⟨trimFront c (d.relayers.dropWhile fun e => e.messages.«end» ≤ c), c⟩ =
      d.lastDeliveredNonce := by
  cases hpop : d.relayers.dropWhile (fun e => e.messages.«end» ≤ c) with
  | nil =>
      -- everything was popped: the back entry ended at `c`, which is the
      -- new confirmed nonce the empty queue falls back to
      rw [trimFront_nil, InboundLaneData.lastDeliveredNonce_nil]
      have hall := List.dropWhile_eq_nil_iff.mp hpop
      cases hlast : d.relayers.getLast? with
      | none =>
          have : d.lastDeliveredNonce = d.lastConfirmedNonce := by
            simp [InboundLaneData.lastDeliveredNonce, hlast]
          omega
      | some z =>
          have hz := end_eq_lastDeliveredNonce hlast
          have hzc : z.messages.«end» ≤ c := by
            simpa using hall z (List.mem_of_getLast? hlast)
          omega
  | cons e rest =>
      -- the back entry survives the pops, and the trim keeps every end
      have hsplit := List.takeWhile_append_dropWhile (p := fun e => decide (e.messages.«end» ≤ c))
        (l := d.relayers)
      have hback : d.relayers.getLast? = (e :: rest).getLast? := by
        rw [← hsplit, hpop, List.getLast?_append, List.getLast?_cons]
        simp
      have hlast : (e :: rest).getLast? = some ((e :: rest).getLast (List.cons_ne_nil _ _)) :=
        List.getLast?_eq_some_getLast _
      show (((trimFront c (e :: rest)).getLast?.map fun e => e.messages.«end»).getD c) =
        ((d.relayers.getLast?.map fun e => e.messages.«end»).getD d.lastConfirmedNonce)
      rw [getLast?_end_trimFront, hback, hlast]
      rfl

/-- **STATE UPDATES DO NOT MOVE DELIVERY**: `receive_state_update` never
    changes the last delivered nonce, whatever the lane data. -/
theorem lastDeliveredNonce_receiveStateUpdate (lane : InboundLane R A P)
    (o : OutboundLaneData) :
    (receiveStateUpdate lane o).2.data.lastDeliveredNonce = lane.data.lastDeliveredNonce := by
  rcases receiveStateUpdate_cases lane o with h | ⟨hlow, hhigh, h⟩
  · rw [h]
  · rw [h, setData_data]
    exact lastDeliveredNonce_confirm lane.data hlow hhigh

/-- **DELIVERY ONLY MOVES FORWARD**: no call lowers the last delivered
    nonce. -/
theorem lastDeliveredNonce_le_step [DecidableEq R] (dispatch : A → DispatchMessage P → D)
    (lane : InboundLane R A P) (call : Call R A P) :
    lane.data.lastDeliveredNonce ≤ (step dispatch lane call).data.lastDeliveredNonce := by
  rcases step_cases dispatch lane call with h | ⟨r, _, nonce, _, hn, -, -, h⟩ | ⟨c, hlow, hhigh, h⟩
  · rw [h]
  · -- the delivered nonce is the next one
    rw [h]
    show lane.data.lastDeliveredNonce ≤ InboundLaneData.lastDeliveredNonce
      ⟨noteDelivery lane.data.relayers r nonce, lane.data.lastConfirmedNonce⟩
    rw [lastDeliveredNonce_noteDelivery lane.data r nonce hn]
    omega
  · rw [h, setData_data, lastDeliveredNonce_confirm lane.data hlow hhigh]

/-- `receive_state_update` makes no dispatch. -/
theorem dispatched_receiveStateUpdate (lane : InboundLane R A P) (o : OutboundLaneData) :
    (receiveStateUpdate lane o).2.dispatched = lane.dispatched := by
  rcases receiveStateUpdate_cases lane o with h | ⟨-, -, h⟩ <;> rw [h]
  rfl

@[simp] theorem storage_id_receiveStateUpdate (lane : InboundLane R A P) (o : OutboundLaneData) :
    (receiveStateUpdate lane o).2.storage.id = lane.storage.id := by
  rcases receiveStateUpdate_cases lane o with h | ⟨-, -, h⟩
  · rw [h]
  · rw [h, setData_storage_id]

/-! ## The relayer queue -/

/-- The shape of the relayer queue that every reachable lane keeps: the
    entries form a consecutive chain, and the front entry starts at the last
    confirmed nonce or right after it and ends above it. -/
structure QueueInvariant (d : InboundLaneData R) : Prop where
  consecutive : RelayersConsecutive d.relayers
  front_begin : ∀ e ∈ d.relayers.head?,
    d.lastConfirmedNonce ≤ e.messages.begin ∧ e.messages.begin ≤ d.lastConfirmedNonce + 1
  front_end : ∀ e ∈ d.relayers.head?, d.lastConfirmedNonce < e.messages.«end»

theorem queueInvariant_default : QueueInvariant (InboundLaneData.default : InboundLaneData R) :=
  ⟨consecutive_nil, fun _ h => (nomatch h), fun _ h => (nomatch h)⟩

/-- Under the invariant nothing is delivered below the confirmed nonce. -/
theorem QueueInvariant.lastConfirmedNonce_le {d : InboundLaneData R} (h : QueueInvariant d) :
    d.lastConfirmedNonce ≤ d.lastDeliveredNonce := by
  cases hl : d.relayers with
  | nil => simp [InboundLaneData.lastDeliveredNonce, hl]
  | cons e rest =>
      have hz : (e :: rest).getLast? = some ((e :: rest).getLast (List.cons_ne_nil _ _)) :=
        List.getLast?_eq_some_getLast _
      have hcons := h.consecutive
      rw [hl] at hcons
      have hle := hcons.hi_le_getLast (List.mem_cons_self ..) hz
      have hend := end_eq_lastDeliveredNonce (d := d) (by rw [hl]; exact hz)
      have hfront := h.front_end e (by rw [hl]; rfl)
      omega

/-- A confirmation keeps the queue shape: the pops leave a chain whose new
    front ends above the confirmed nonce and starts at most one past it, and
    the trim only raises a start that lies below it. -/
theorem QueueInvariant.confirm {d : InboundLaneData R} (h : QueueInvariant d) {c : ℕ}
    (hlow : d.lastConfirmedNonce < c) :
    QueueInvariant ⟨trimFront c (d.relayers.dropWhile fun e => e.messages.«end» ≤ c), c⟩ := by
  have hchain := h.consecutive.dropWhile (fun e => decide (e.messages.«end» ≤ c))
  have hbegin := h.consecutive.lo_head_dropWhile_le (c := c) (by
    intro e he
    have := (h.front_begin e he).2
    omega)
  have hend := List.head?_dropWhile_not (fun e => decide (e.messages.«end» ≤ c)) d.relayers
  cases hpop : d.relayers.dropWhile (fun e => decide (e.messages.«end» ≤ c)) with
  | nil => exact ⟨consecutive_nil, fun _ h => (nomatch h), fun _ h => (nomatch h)⟩
  | cons e rest =>
      rw [hpop] at hchain hend
      have heb : e.messages.begin ≤ c + 1 := hbegin e (by rw [hpop]; rfl)
      have hee : c < e.messages.«end» := by simpa using hend
      rw [trimFront_cons]
      split
      · -- the front starts below `c`: it is made to start at `c + 1`
        refine ⟨hchain.narrow_head rfl (Nat.succ_le_of_lt hee), ?_, ?_⟩
        · intro x hx
          rw [List.head?_cons, Option.mem_some_iff] at hx
          subst hx
          simp
        · intro x hx
          rw [List.head?_cons, Option.mem_some_iff] at hx
          subst hx
          exact hee
      · -- the front starts at `c` or `c + 1` and is kept as it is
        rename_i hnot
        refine ⟨hchain, ?_, ?_⟩
        · intro x hx
          rw [List.head?_cons, Option.mem_some_iff] at hx
          subst hx
          refine ⟨?_, heb⟩
          show c ≤ e.messages.begin
          omega
        · intro x hx
          rw [List.head?_cons, Option.mem_some_iff] at hx
          subst hx
          exact hee

/-- A delivery of the next nonce keeps the queue shape. -/
theorem QueueInvariant.deliver [DecidableEq R] {d : InboundLaneData R} (h : QueueInvariant d)
    (r : R) {nonce : ℕ} (hnonce : nonce = d.lastDeliveredNonce + 1) :
    QueueInvariant ⟨noteDelivery d.relayers r nonce, d.lastConfirmedNonce⟩ := by
  refine ⟨consecutive_noteDelivery h.consecutive ?_, ?_, ?_⟩
  · intro e he
    rw [end_eq_lastDeliveredNonce he]
    exact hnonce
  all_goals
    intro e he
    rcases head?_noteDelivery d.relayers r nonce e he with ⟨hnil, hmsg⟩ | ⟨e₀, he₀, hb, hle⟩
    · -- the queue was empty, so the last delivered nonce was the confirmed one
      have hld : d.lastDeliveredNonce = d.lastConfirmedNonce := by
        simp [InboundLaneData.lastDeliveredNonce, hnil]
      simp only [hmsg, DeliveredMessages.new_begin, DeliveredMessages.new_end]
      omega
  · rw [hb]
    exact h.front_begin e₀ he₀
  · exact lt_of_lt_of_le (h.front_end e₀ he₀) hle

/-- Every call keeps the queue shape. -/
theorem QueueInvariant.step [DecidableEq R] (dispatch : A → DispatchMessage P → D)
    {lane : InboundLane R A P} (h : QueueInvariant lane.data) (call : Call R A P) :
    QueueInvariant (InboundLane.step dispatch lane call).data := by
  rcases step_cases dispatch lane call with hres | ⟨r, _, _, _, hn, -, -, hres⟩ | ⟨c, hlow, -, hres⟩
  · rw [hres]
    exact h
  · rw [hres]
    exact h.deliver r hn
  · rw [hres]
    exact h.confirm hlow

/-- **QUEUE SHAPE**: every lane reachable from the default data keeps the
    queue invariant, hence never has delivered below its confirmed nonce. -/
theorem queueInvariant_of_reachable [DecidableEq R] (dispatch : A → DispatchMessage P → D)
    {id : LaneId} {maxEntries maxUnconfirmed : ℕ} {lane : InboundLane R A P}
    (h : Reach.Reachable (InboundLane.step dispatch) (init id maxEntries maxUnconfirmed) lane) :
    QueueInvariant lane.data ∧ lane.data.lastConfirmedNonce ≤ lane.data.lastDeliveredNonce := by
  have hinv : QueueInvariant lane.data :=
    h.invariant (fun l => QueueInvariant l.data) queueInvariant_default
      (fun _ call _ hs => hs.step dispatch call)
  exact ⟨hinv, hinv.lastConfirmedNonce_le⟩

/-- **INBOUND LANE OVER RUNS**: every run from the default data keeps the
    relayer queue's shape and never has delivered below its confirmed
    nonce; and from any lane, no run moves `last_delivered_nonce` back. -/
theorem inbound_lane_over_runs [DecidableEq R] (dispatch : A → DispatchMessage P → D)
    (id : LaneId) (maxEntries maxUnconfirmed : ℕ) :
    (∀ calls : List (Call R A P),
      let lane := calls.foldl (step dispatch) (init id maxEntries maxUnconfirmed)
      QueueInvariant lane.data ∧ lane.data.lastConfirmedNonce ≤ lane.data.lastDeliveredNonce) ∧
    ∀ (lane : InboundLane R A P) (calls : List (Call R A P)),
      lane.data.lastDeliveredNonce ≤ (calls.foldl (step dispatch) lane).data.lastDeliveredNonce := by
  refine ⟨fun calls => queueInvariant_of_reachable dispatch (Reach.reachable_foldl _ calls),
    fun lane calls => ?_⟩
  exact Reach.le_foldl_of_le_step (fun l : InboundLane R A P => l.data.lastDeliveredNonce)
    (lastDeliveredNonce_le_step dispatch) calls lane

/-- A delivery run along an entry boundary: relayer `1` delivers nonce `1`,
    relayer `2` nonces `2` and `3`, then the source confirms up to `2`. -/
def confirmAtEntryBoundary : List (Call ℕ ℕ Unit) :=
  [.receiveMessage 1 1 1 (), .receiveMessage 2 2 2 (), .receiveMessage 2 2 3 (),
    .receiveStateUpdate ⟨1, 2, 3⟩]

/-- Confirming exactly the nonce an entry starts with does not trim that
    entry: it keeps the already confirmed nonce `2`, where the queue is meant
    to hold only nonces above the last confirmed one. -/
theorem front_entry_keeps_confirmed_nonce :
    (confirmAtEntryBoundary.foldl (step fun _ _ => ())
        (init #v[0, 0, 0, 0] 8 8 : InboundLane ℕ ℕ Unit)).data =
      ⟨[⟨2, ⟨2, 3⟩⟩], 2⟩ := by
  decide

/-! ## The dispatch log -/

/-- The calls made to `dispatch` so far carry the nonces `1, …, n` in this
    order, where `n` is the last delivered nonce. -/
def DispatchLog (lane : InboundLane R A P) : Prop :=
  lane.dispatched.map (fun x => x.2.key.nonce) = List.range' 1 lane.data.lastDeliveredNonce

theorem dispatchLog_init (id : LaneId) (maxEntries maxUnconfirmed : ℕ) :
    DispatchLog (init id maxEntries maxUnconfirmed : InboundLane R A P) := rfl

/-- `receive_message` calls `dispatch` exactly when it answers `Dispatched`,
    with the lane's key for the nonce. -/
theorem dispatched_receiveMessage [DecidableEq R] (dispatch : A → DispatchMessage P → D)
    (lane : InboundLane R A P) (r : R) (a : A) (nonce : ℕ) (m : P) :
    (receiveMessage dispatch lane r a nonce m).2.dispatched =
      lane.dispatched ++ if (receiveMessage dispatch lane r a nonce m).1.isDispatched then
        [(a, ⟨⟨lane.storage.id, nonce⟩, m⟩)] else [] := by
  rcases receiveMessage_cases dispatch lane r a nonce m with ⟨hrej, hres⟩ | ⟨-, -, -, hres⟩
  · have hnot : (receiveMessage dispatch lane r a nonce m).1.isDispatched = false := by
      rcases hrej with h | h | h <;> rw [h] <;> rfl
    rw [hnot, hres, if_neg Bool.false_ne_true, List.append_nil]
  · rw [hres]
    rfl

theorem DispatchLog.step [DecidableEq R] (dispatch : A → DispatchMessage P → D)
    {lane : InboundLane R A P} (h : DispatchLog lane) (call : Call R A P) :
    DispatchLog (InboundLane.step dispatch lane call) := by
  rcases step_cases dispatch lane call with hres | ⟨r, a, nonce, m, hn, -, -, hres⟩ |
    ⟨c, hlow, hhigh, hres⟩
  · rw [hres]
    exact h
  · -- one more call, for the nonce right after the last delivered one
    rw [hres]
    unfold DispatchLog
    have hld := lastDeliveredNonce_noteDelivery lane.data r nonce hn
    show (lane.dispatched ++ _).map _ =
      List.range' 1 (InboundLaneData.lastDeliveredNonce
        ⟨noteDelivery lane.data.relayers r nonce, lane.data.lastConfirmedNonce⟩)
    rw [hld, List.map_append, h, hn, List.range'_concat]
    simp only [List.map_cons, List.map_nil, Nat.one_mul]
    rw [Nat.add_comm]
  · -- a confirmation neither dispatches nor moves the last delivered nonce
    rw [hres]
    unfold DispatchLog
    rw [setData_dispatched, setData_data, lastDeliveredNonce_confirm lane.data hlow hhigh]
    exact h

theorem dispatch_exactly_once_in_order [DecidableEq R] (dispatch : A → DispatchMessage P → D)
    {id : LaneId} {maxEntries maxUnconfirmed : ℕ} {lane : InboundLane R A P}
    (h : Reach.Reachable (InboundLane.step dispatch) (init id maxEntries maxUnconfirmed) lane) :
    lane.dispatched.map (fun x => x.2.key.nonce) = List.range' 1 lane.data.lastDeliveredNonce ∧
    (∀ (r : R) (a : A) (nonce : ℕ) (m : P),
      (receiveMessage dispatch lane r a nonce m).2.dispatched =
        lane.dispatched ++ if (receiveMessage dispatch lane r a nonce m).1.isDispatched then
          [(a, ⟨⟨lane.storage.id, nonce⟩, m⟩)] else []) ∧
    (∀ o : OutboundLaneData,
      (receiveStateUpdate lane o).2.data.lastDeliveredNonce = lane.data.lastDeliveredNonce ∧
      (receiveStateUpdate lane o).2.dispatched = lane.dispatched) := by
  refine ⟨?_, dispatched_receiveMessage dispatch lane, ?_⟩
  · exact h.invariant DispatchLog (dispatchLog_init id maxEntries maxUnconfirmed)
      (fun _ call _ hs => hs.step dispatch call)
  · intro o
    exact ⟨lastDeliveredNonce_receiveStateUpdate lane o, dispatched_receiveStateUpdate lane o⟩

theorem dispatch_exactly_once_in_order_on_boundary_run :
    Reach.Reachable (InboundLane.step fun _ _ => ())
        (init #v[0, 0, 0, 0] 8 8 : InboundLane ℕ ℕ Unit)
        (confirmAtEntryBoundary.foldl (InboundLane.step fun _ _ => ()) (init #v[0, 0, 0, 0] 8 8)) ∧
      ((confirmAtEntryBoundary.foldl (InboundLane.step fun _ _ => ())
        (init #v[0, 0, 0, 0] 8 8 : InboundLane ℕ ℕ Unit)).dispatched.map
          (fun x => x.2.key.nonce) = [1, 2, 3]) :=
  have hr := @Reach.reachable_foldl _ _ (InboundLane.step fun _ _ => ())
    (init #v[0, 0, 0, 0] 8 8 : InboundLane ℕ ℕ Unit) confirmAtEntryBoundary
  ⟨hr, (dispatch_exactly_once_in_order (fun _ _ => ()) hr).1.trans (by decide)⟩

/-! ## The limits -/

/-- The queue holds at most the lane's entry limit, and the unconfirmed range
    at most its message limit. -/
def WithinLimits (lane : InboundLane R A P) : Prop :=
  lane.data.relayers.length ≤ lane.storage.maxUnrewardedRelayerEntries ∧
    lane.data.lastDeliveredNonce - lane.data.lastConfirmedNonce ≤
      lane.storage.maxUnconfirmedMessages

theorem withinLimits_init (id : LaneId) (maxEntries maxUnconfirmed : ℕ) :
    WithinLimits (init id maxEntries maxUnconfirmed : InboundLane R A P) :=
  ⟨Nat.zero_le _, Nat.zero_le _⟩

theorem WithinLimits.step [DecidableEq R] (dispatch : A → DispatchMessage P → D)
    {lane : InboundLane R A P} (h : WithinLimits lane) (call : Call R A P) :
    WithinLimits (InboundLane.step dispatch lane call) := by
  rcases step_cases dispatch lane call with hres | ⟨r, _, nonce, _, hn, hentries, hunconfirmed, hres⟩ |
    ⟨c, hlow, hhigh, hres⟩
  · rw [hres]
    exact h
  · -- a push needs a free entry, and the new last delivered nonce is `nonce`
    rw [hres]
    have hlen := length_noteDelivery_le lane.data.relayers r nonce
    have hld := lastDeliveredNonce_noteDelivery lane.data r nonce hn
    constructor
    · show (noteDelivery lane.data.relayers r nonce).length ≤
        lane.storage.maxUnrewardedRelayerEntries
      omega
    · show InboundLaneData.lastDeliveredNonce
          ⟨noteDelivery lane.data.relayers r nonce, lane.data.lastConfirmedNonce⟩ -
        lane.data.lastConfirmedNonce ≤ lane.storage.maxUnconfirmedMessages
      rw [hld]
      exact hunconfirmed
  · -- pops shorten the queue and the confirmed nonce only grows
    rw [hres]
    have hlen : (lane.data.relayers.dropWhile fun e => e.messages.«end» ≤ c).length ≤
        lane.data.relayers.length :=
      (List.dropWhile_suffix _).length_le
    refine ⟨?_, ?_⟩
    · show (trimFront _ _).length ≤ lane.storage.maxUnrewardedRelayerEntries
      rw [length_trimFront]
      exact hlen.trans h.1
    · show InboundLaneData.lastDeliveredNonce
          ⟨trimFront c (lane.data.relayers.dropWhile fun e => e.messages.«end» ≤ c), c⟩ - c ≤
        lane.storage.maxUnconfirmedMessages
      rw [lastDeliveredNonce_confirm lane.data hlow hhigh]
      have := h.2
      omega

theorem inbound_lane_within_limits [DecidableEq R] (dispatch : A → DispatchMessage P → D)
    {id : LaneId} {maxEntries maxUnconfirmed : ℕ} {lane : InboundLane R A P}
    (h : Reach.Reachable (InboundLane.step dispatch) (init id maxEntries maxUnconfirmed) lane) :
    lane.data.relayers.length ≤ maxEntries ∧
    lane.data.lastDeliveredNonce - lane.data.lastConfirmedNonce ≤ maxUnconfirmed ∧
    ∀ (r : R) (a : A) (nonce : ℕ) (m : P),
      (receiveMessage dispatch lane r a nonce m).1.IsRejection →
        (receiveMessage dispatch lane r a nonce m).2 = lane := by
  have hlimits : lane.storage.maxUnrewardedRelayerEntries = maxEntries ∧
      lane.storage.maxUnconfirmedMessages = maxUnconfirmed :=
    h.invariant (fun l => l.storage.maxUnrewardedRelayerEntries = maxEntries ∧
        l.storage.maxUnconfirmedMessages = maxUnconfirmed) ⟨rfl, rfl⟩
      (fun s call _ hs => by rw [(step_limits dispatch s call).1, (step_limits dispatch s call).2]; exact hs)
  have hwithin : WithinLimits lane :=
    h.invariant WithinLimits (withinLimits_init id maxEntries maxUnconfirmed)
      (fun _ call _ hs => hs.step dispatch call)
  refine ⟨hlimits.1 ▸ hwithin.1, hlimits.2 ▸ hwithin.2, ?_⟩
  intro r a nonce m hrej
  rcases receiveMessage_cases dispatch lane r a nonce m with ⟨-, hres⟩ | ⟨-, -, -, hres⟩
  · exact hres
  · rw [hres] at hrej
    rcases hrej with h | h | h <;> exact nomatch h

theorem inbound_lane_within_limits_on_boundary_run :
    Reach.Reachable (InboundLane.step fun _ _ => ())
        (init #v[0, 0, 0, 0] 2 3 : InboundLane ℕ ℕ Unit)
        (confirmAtEntryBoundary.foldl (InboundLane.step fun _ _ => ()) (init #v[0, 0, 0, 0] 2 3)) ∧
      (confirmAtEntryBoundary.foldl (InboundLane.step fun _ _ => ())
        (init #v[0, 0, 0, 0] 2 3 : InboundLane ℕ ℕ Unit)).data.relayers.length ≤ 2 :=
  have hr := @Reach.reachable_foldl _ _ (InboundLane.step fun _ _ => ())
    (init #v[0, 0, 0, 0] 2 3 : InboundLane ℕ ℕ Unit) confirmAtEntryBoundary
  ⟨hr, (inbound_lane_within_limits (fun _ _ => ()) hr).1⟩

end InboundLane

end ParityBridge
