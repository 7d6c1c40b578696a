/-
When the server asks for traffic: what `poll` answers, and how a handshake is paced.

`poll` never fails. An action it answers is the event of the first peer, counted from
`peer_poll_off` round, that has one; an initiation is never asked for twice. A sleep
comes only when no peer has an event, and it is at least `EVENT_GRACE` (so that
`Duration::from_secs_f64` gets no negative number) and no longer than any deadline
still pending.
-/
import Rosenpass.Properties.Index

namespace Rosenpass

open EStateM PollResult

/-- `CryptoServer::poll` on any server at any time: it returns, an initiation it asks for
was not asked for before, an action is the first peer event in the poll's order, and a
sleep comes when no peer has an event and is no shorter than `EVENT_GRACE`, no longer
than `UNENDING` and no longer than any wait of a peer or a store that is not due. -/
theorem poll_schedules_exactly (env : Env) (c : Ctx) :
    ∃ r c', (poll env).run c = .ok r c' ∧
      (∀ (p : PeerPtr) (q : Peer), r = SendInitiation p → c.srv.peers[p.val]? = some q → q.initiationRequested = false) ∧
      (r.saturated = true → ∃ pre p q post, c.srv.peerOrder = pre ++ (p, q) :: post ∧
        (∀ pq ∈ pre, pq.2.event env.now pq.1 = none) ∧ q.event env.now p = some r) ∧
      (∀ d, r = Sleep d →
        (∀ (i : Nat) (q : Peer), c.srv.peers[i]? = some q → q.event env.now ⟨i⟩ = none) ∧
        EVENT_GRACE ≤ d ∧ d ≤ UNENDING ∧
        (∀ (i : Nat) (q : Peer), c.srv.peers[i]? = some q → ∀ w ∈ (q.pruned env.now).waits env.now, d ≤ w) ∧
        (∀ k, hasHappened ((c.srv.biscuitKeys k).dieWait BISCUIT_EPOCH env.now) 0 = false →
          d ≤ (c.srv.biscuitKeys k).dieWait BISCUIT_EPOCH env.now) ∧
        (∀ k, hasHappened ((c.srv.cookieSecrets k).dieWait COOKIE_SECRET_EPOCH env.now) 0 = false →
          d ≤ (c.srv.cookieSecrets k).dieWait COOKIE_SECRET_EPOCH env.now)) := by
  obtain ⟨c', hrun, hans⟩ := run_poll_answer env c
  refine ⟨_, c', hrun, ?_, scan_eq_event, ?_⟩
  · -- the initiation is the event of the peer it names, which has not asked for one
    intro p q hini hq
    have hev := (hans p q (by rw [hini]; rfl) hq).1
    rw [hini] at hev
    exact Peer.initiationRequested_of_event hev
  · intro d hd
    obtain ⟨hev, hds, hdq, hd'⟩ := scan_eq_sleep hd
    -- every wait the scan took is at least `EVENT_GRACE`
    have hgrace : EVENT_GRACE ≤ d := by
      rcases hd' with rfl | ⟨pq, hpq, rfl⟩
      · exact CryptoServer.grace_le_storesSleep _
      · exact Peer.grace_le_sleep (hev pq hpq)
    refine ⟨fun i q hq => hev (⟨i⟩, q) (CryptoServer.mem_peerOrder hq), hgrace,
      hds.trans (CryptoServer.storesSleep_le_unending _), ?_, ?_, ?_⟩
    · intro i q hq w hw
      exact (hdq (⟨i⟩, q) (CryptoServer.mem_peerOrder hq)).trans (Peer.sleep_le_of_mem_waits hw)
    · exact fun k hk => hds.trans (CryptoServer.storesSleep_le_biscuitKey _ k hk)
    · exact fun k hk => hds.trans (CryptoServer.storesSleep_le_cookieSecret _ k hk)

/-! ## Pacing of the handshake traffic -/

namespace Peer

variable {q : Peer} {p p' : PeerPtr}

/-- An initiation comes once the handshake and the session have retired: the later of the
waits is due, so each of them is. -/
theorem initiation_due {now : Timing} (h : q.event now p = some (SendInitiation p')) :
    (∀ hs, q.handshake = some hs → hs.createdAt + REJECT_AFTER_TIME - now < EVENT_GRACE) ∧
    (∀ t, SessionPtr.retireAt q = some t → t - now < EVENT_GRACE) := by
  have hi : hasHappened ((q.pruned now).initWait now) 0 = true := by
    unfold event at h
    split_ifs at h with hs hi <;> first | exact hi | cases h
  have hlt := lt_grace_of_hasHappened hi
  unfold initWait at hlt
  have hses := lt_of_le_of_lt (Wait.le_and_right _ _) (lt_of_le_of_lt (Wait.le_and_left _ _) hlt)
  have hhs := lt_of_le_of_lt (Wait.le_and_right _ _) hlt
  constructor
  · intro hs hq
    -- a handshake due to die is pruned first; one that is not must have died by the wait
    by_cases hd : hasHappened (q.hsDieWait now) 0
    · simpa [hsDieWait, IniHsPtr.dieAt, timeLeft, hq, Wait.orHibernate] using lt_grace_of_hasHappened hd
    · have hpr : q.pruned now = q := by simp [pruned, hd]
      rw [hpr] at hhs
      simpa [IniHsPtr.dieAt, timeLeft, hq, Wait.orImmediate] using hhs
  · intro t ht
    have hret : SessionPtr.retireAt (q.pruned now) = SessionPtr.retireAt q := by
      unfold pruned
      split <;> rfl
    rw [hret, ht] at hses
    simpa [timeLeft, Wait.orImmediate] using hses

/-- A retransmission is of a handshake that is not due to die. -/
theorem retransmission_due {now : Timing} (h : q.event now p = some (SendRetransmission p')) :
    ∃ hs, q.handshake = some hs ∧ q.pruned now = q ∧ EVENT_GRACE ≤ hs.createdAt + REJECT_AFTER_TIME - now := by
  have hr : hasHappened ((q.pruned now).retryWait now) 0 = true := by
    unfold event at h
    split_ifs at h with hs hi hr <;> first | exact hr | cases h
  have hsome : (q.pruned now).handshake.isSome = true := by
    simpa [retryWait, IniHsPtr.retransmissionIn] using isSome_of_orHibernate hr
  have hd : hasHappened (q.hsDieWait now) 0 = false := by
    by_contra hd
    rw [Bool.not_eq_false] at hd
    simp [pruned, hd] at hsome
  have hpr : q.pruned now = q := by simp [pruned, hd]
  rw [hpr] at hsome
  obtain ⟨hs, hhs⟩ := Option.isSome_iff_exists.1 hsome
  refine ⟨hs, hhs, hpr, ?_⟩
  simpa [hsDieWait, IniHsPtr.dieAt, timeLeft, hhs, Wait.orHibernate] using grace_le_of_not_hasHappened hd

/-- A peer with no session, no initiation asked for, and a handshake that is not due to die
and whose retransmission is due: its event is the retransmission, however long ago the
handshake began. -/
theorem event_of_retransmission_due {hs : InitiatorHandshake} {now : Timing} (p : PeerPtr)
    (hhs : q.handshake = some hs) (hses : q.session = none) (hreq : q.initiationRequested = false)
    (hlive : EVENT_GRACE ≤ hs.createdAt + REJECT_AFTER_TIME - now) (hdue : hs.txRetryAt - now < EVENT_GRACE) :
    q.event now p = some (SendRetransmission p) := by
  have hgrace : (0 : Timing) < EVENT_GRACE := by norm_num [EVENT_GRACE]
  -- the handshake is not due to die, so the poll keeps it
  have hd : hasHappened (q.hsDieWait now) 0 = false := by
    simpa [hsDieWait, IniHsPtr.dieAt, timeLeft, hhs, Wait.orHibernate, hasHappened] using hlive
  have hpr : q.pruned now = q := by simp [pruned, hd]
  -- no session to delete, and no initiation while the handshake lives
  have hdel : hasHappened (q.sesDieWait now) 0 = false := by
    simpa [sesDieWait, SessionPtr.dieAt, hses, timeLeft, Wait.orHibernate, Wait.hibernate] using
      not_hasHappened_unending
  have hinit : hasHappened (q.initWait now) 0 = false := by
    have hpos : ¬ (hs.createdAt + REJECT_AFTER_TIME - now < 0) := by linarith
    simpa [initWait, hreq, Wait.immediateUnless, Wait.immediate, SessionPtr.retireAt, hses, timeLeft,
      Wait.orImmediate, IniHsPtr.dieAt, hhs, Wait.and, hpos, hasHappened] using hlive
  have hretry : hasHappened (q.retryWait now) 0 = true := by
    simpa [retryWait, IniHsPtr.retransmissionIn, hhs, Wait.orHibernate, hasHappened] using hdue
  simp only [event, hpr, hdel, hinit, hretry, Bool.false_eq_true, if_false, if_true]

/-- A peer with neither handshake nor session: nothing to prune or delete, and an
initiation due unless one was asked for. -/
theorem waits_of_idle (now : Timing) (hhs : q.handshake = none) (hses : q.session = none) :
    q.pruned now = q ∧ hasHappened (q.sesDieWait now) 0 = false ∧
      (q.initiationRequested = false → hasHappened (q.initWait now) 0 = true) := by
  have hd : hasHappened (q.hsDieWait now) 0 = false := by
    simpa [hsDieWait, IniHsPtr.dieAt, hhs, timeLeft, Wait.orHibernate, Wait.hibernate] using not_hasHappened_unending
  refine ⟨by simp [pruned, hd], ?_, fun hreq => ?_⟩
  · simpa [sesDieWait, SessionPtr.dieAt, hses, timeLeft, Wait.orHibernate, Wait.hibernate] using
      not_hasHappened_unending
  · simp [initWait, hreq, Wait.immediateUnless, Wait.immediate, SessionPtr.retireAt, hses, IniHsPtr.dieAt, hhs,
      timeLeft, Wait.orImmediate, Wait.and, hasHappened, EVENT_GRACE]

/-- A peer with neither handshake nor session that has not asked for an initiation asks
for one. -/
theorem event_of_idle {now : Timing} (p : PeerPtr) (hhs : q.handshake = none) (hses : q.session = none)
    (hreq : q.initiationRequested = false) : q.event now p = some (SendInitiation p) := by
  obtain ⟨hpr, hdel, hinit⟩ := waits_of_idle now hhs hses
  simp only [event, hpr, hdel, hinit hreq, Bool.false_eq_true, if_false, if_true]

theorem afterPoll_of_idle {env : Env} (hhs : q.handshake = none) (hses : q.session = none)
    (hreq : q.initiationRequested = false) : q.afterPoll env = { q with initiationRequested := true } := by
  obtain ⟨hpr, hdel, hinit⟩ := waits_of_idle env.now hhs hses
  simp only [afterPoll, hpr, hdel, hinit hreq, Bool.false_eq_true, if_false, if_true]

theorem afterPoll_of_initiation {env : Env} (h : q.event env.now p = some (SendInitiation p')) :
    (q.afterPoll env).initiationRequested = true := by
  unfold event at h
  split_ifs at h with hs hi <;> try cases h
  simp [afterPoll, hs, hi]

theorem afterPoll_of_retransmission {env : Env} {hs : InitiatorHandshake}
    (h : q.event env.now p = some (SendRetransmission p')) (hhs : q.handshake = some hs) :
    (q.afterPoll env).handshake = some (hs.registered env) := by
  obtain ⟨-, -, hpr, -⟩ := retransmission_due h
  unfold event at h
  split_ifs at h with h₁ h₂ h₃ <;> try cases h
  rw [hpr] at h₁ h₂ h₃
  simp [afterPoll, h₁, h₂, h₃, hpr, hhs]

end Peer

/-- The backoff of `register_retransmission`: at least the first delay with the least jitter,
and less than `RETRANSMIT_DELAY_END`. -/
theorem retransmitDelay_mem (n : Nat) (r : Jitter) :
    RETRANSMIT_DELAY_BEGIN * RETRANSMIT_DELAY_JITTER ≤ retransmitDelay n r ∧
      retransmitDelay n r < RETRANSMIT_DELAY_END := by
  obtain ⟨r, hr0, hr1⟩ := r
  have hpow : (1 : Timing) ≤ RETRANSMIT_DELAY_GROWTH ^ n := one_le_pow₀ (by norm_num [RETRANSMIT_DELAY_GROWTH])
  have hlo : 1 ≤ min (RETRANSMIT_DELAY_END / RETRANSMIT_DELAY_BEGIN) (RETRANSMIT_DELAY_GROWTH ^ n) :=
    le_min (by norm_num [RETRANSMIT_DELAY_END, RETRANSMIT_DELAY_BEGIN]) hpow
  have hhi : min (RETRANSMIT_DELAY_END / RETRANSMIT_DELAY_BEGIN) (RETRANSMIT_DELAY_GROWTH ^ n) ≤ 20 :=
    (min_le_left _ _).trans (by norm_num [RETRANSMIT_DELAY_END, RETRANSMIT_DELAY_BEGIN])
  unfold retransmitDelay
  norm_num only [RETRANSMIT_DELAY_BEGIN, RETRANSMIT_DELAY_JITTER, RETRANSMIT_DELAY_END] at hlo hhi ⊢
  constructor <;> nlinarith

theorem poll_paces_handshakes (env : Env) (c : Ctx) :
    ∃ r c', (poll env).run c = .ok r c' ∧
      (∀ (p : PeerPtr) (q : Peer), r = SendInitiation p → c.srv.peers[p.val]? = some q →
        q.initiationRequested = false ∧
        (∀ hs, q.handshake = some hs → REJECT_AFTER_TIME - EVENT_GRACE < env.now - hs.createdAt) ∧
        (∀ t, SessionPtr.retireAt q = some t → t - EVENT_GRACE < env.now) ∧
        (c'.srv.peers[p.val]?).map (·.initiationRequested) = some true) ∧
      (∀ (p : PeerPtr) (q : Peer), r = SendRetransmission p → c.srv.peers[p.val]? = some q →
        ∃ hs hs', q.handshake = some hs ∧ env.now - hs.createdAt ≤ REJECT_AFTER_TIME - EVENT_GRACE ∧
          (c'.srv.peers[p.val]?).bind (·.handshake) = some hs' ∧
          RETRANSMIT_DELAY_BEGIN * RETRANSMIT_DELAY_JITTER ≤ hs'.txRetryAt - env.now ∧
          hs'.txRetryAt - env.now < RETRANSMIT_DELAY_END) := by
  obtain ⟨c', hrun, hans⟩ := run_poll_answer env c
  refine ⟨_, c', hrun, ?_, ?_⟩
  · intro p q hini hq
    obtain ⟨hev, hafter⟩ := hans p q (by rw [hini]; rfl) hq
    rw [hini] at hev
    obtain ⟨hhs, hses⟩ := Peer.initiation_due hev
    refine ⟨Peer.initiationRequested_of_event hev, fun hs h => ?_, fun t ht => ?_, ?_⟩
    · linarith [hhs hs h]
    · linarith [hses t ht]
    · rw [hafter, Option.map_some, Peer.afterPoll_of_initiation hev]
  · intro p q hre hq
    obtain ⟨hev, hafter⟩ := hans p q (by rw [hre]; rfl) hq
    rw [hre] at hev
    obtain ⟨hs, hhs, -, hlive⟩ := Peer.retransmission_due hev
    refine ⟨hs, hs.registered env, hhs, by linarith, ?_, ?_⟩
    · rw [hafter, Option.bind_some, Peer.afterPoll_of_retransmission hev hhs]
    · simpa [InitiatorHandshake.registered] using retransmitDelay_mem hs.txCount env.coins.jitter

/-! ## Retransmission goes on past `RETRANSMIT_ABORT` -/

theorem CryptoServer.peerOrder_of_peers {srv : CryptoServer} {q : Peer} (h : srv.peers = [q]) :
    srv.peerOrder = [(⟨0⟩, q)] := by
  simp only [CryptoServer.peerOrder, h, List.map_eq_singleton_iff]
  obtain ⟨a, ha⟩ := List.length_eq_one_iff.1
    (show (List.finRange srv.peers.length).length = 1 by rw [List.length_finRange, h]; rfl)
  exact ⟨a, ha, by simp [Nat.mod_one, h]⟩

/-- A server with one peer: the peer at index 0. -/
theorem CryptoServer.peers_eq_singleton {srv : CryptoServer} {q : Peer} (hlen : srv.peers.length = 1)
    (hq : srv.peer 0 = .ok q) : srv.peers = [q] := by
  obtain ⟨q₁, hq₁⟩ := List.length_eq_one_iff.1 hlen
  have h0 := CryptoServer.peer_eq_ok.1 hq
  rw [hq₁, List.getElem?_cons_zero, Option.some_inj] at h0
  rw [hq₁, h0]

/-- `poll` at a server with one peer that has an event answers that event, and leaves the
peer as its poll does. -/
theorem run_poll_single (env : Env) {c : Ctx} {q : Peer} {e : PollResult} (hpeers : c.srv.peers = [q])
    (hev : q.event env.now ⟨0⟩ = some e) :
    ∃ c', (poll env).run c = .ok e c' ∧ c'.srv.peers = [q.afterPoll env] := by
  obtain ⟨c', hrun, hpeers', -⟩ := run_poll env c
  rw [CryptoServer.peerOrder_of_peers hpeers] at hrun hpeers'
  refine ⟨c', by simpa [scan, hev] using hrun, ?_⟩
  rw [hpeers', hpeers]
  simp [afterScan, scanned, hev]

/-- The number of peers, and nothing else. -/
def peerCount : Observation Unit Unit where
  peer _ := ()
  srv _ := ()

theorem peerCount_handshakeBlind : peerCount.HandshakeBlind :=
  ⟨fun _ _ => rfl, fun _ _ => rfl, fun _ _ => rfl, fun _ _ _ => rfl, fun _ _ _ => rfl, fun _ _ _ => rfl,
    fun _ _ => rfl⟩

theorem length_peers_of_peerCount {c c' : Ctx} (h : peerCount.Same c c') :
    c'.srv.peers.length = c.srv.peers.length := by
  simpa using congrArg List.length h.1

/-- A server asks for an initiation at time 0 and starts the handshake; 130 seconds later
it asks to retransmit that handshake's InitHello, although `RETRANSMIT_ABORT` is 120. -/
theorem poll_retransmits_after_abort :
    let a : CryptoServer := (Net.pair Primitives.small (Coins.constant 0) (Coins.constant 0) [21] [21] [42] [42] (zeros KEY_LEN)).a
    let r₀ := (poll ⟨0, Coins.constant 1⟩).run ⟨a, zeros MAX_MESSAGE_LEN⟩
    let r₁ := (initiateHandshake Primitives.small ⟨0, Coins.constant 1⟩ ⟨0⟩).run ⟨r₀.state.srv, zeros MAX_MESSAGE_LEN⟩
    let r₂ := (poll ⟨130, Coins.constant 1⟩).run ⟨r₁.state.srv, zeros MAX_MESSAGE_LEN⟩
    r₀.value? = some (SendInitiation ⟨0⟩) ∧ r₁.error? = none ∧
      (r₁.state.srv.peers[0]?.bind (·.handshake)).map (·.createdAt) = some 0 ∧
      r₂.value? = some (SendRetransmission ⟨0⟩) ∧ RETRANSMIT_ABORT < 130 - 0 := by
  intro a r₀ r₁ r₂
  obtain ⟨z, hz, hzlen⟩ := exists_zeros_eq MAX_MESSAGE_LEN
  -- 1. at time 0 the peer has neither handshake nor session: the poll asks for an initiation
  obtain ⟨c₀, hrun₀, hpeers₀⟩ := run_poll_single ⟨0, Coins.constant 1⟩ (c := ⟨a, zeros MAX_MESSAGE_LEN⟩)
    (q := Peer.new (zeros KEY_LEN) [42]) rfl (Peer.event_of_idle _ rfl rfl rfl)
  rw [Peer.afterPoll_of_idle rfl rfl rfl] at hpeers₀
  have hidx₀ : c₀.srv.index (.Sid (draw SESSION_ID_LEN (Coins.constant 1).sid)) = none := by
    have h := IndexShrinks.keeps_poll ⟨0, Coins.constant 1⟩ ⟨a, zeros MAX_MESSAGE_LEN⟩
    rw [hrun₀] at h
    exact h _ (by decide +kernel)
  -- 2. the initiation at time 0 keeps a handshake made then
  set q₀ : Peer := { Peer.new (zeros KEY_LEN) [42] with initiationRequested := true }
  have hq₀ : c₀.srv.peer 0 = .ok q₀ := CryptoServer.peer_eq_ok.2 (by rw [hpeers₀]; rfl)
  have hw := initiate_registers (P := Primitives.small) ⟨0, Coins.constant 1⟩ hq₀ (fun _ h => by cases h) hidx₀
    (show Envelope.size (InitHello.size Primitives.small) ≤ z.length by rw [hzlen]; decide)
  simp only [Op.exec, wp_map] at hw
  obtain ⟨len₁, c₁, hrun₁, -, -, -, -, -, -, hpeer₁⟩ := run_of_wp hw
  have hpeers₁ : c₁.srv.peers = [{ q₀ with
      handshake := some { InitiatorHandshake.ofHello Primitives.small ⟨0, Coins.constant 1⟩ c₀.srv.spkm q₀ with
        txBuf := cpyMin (c₁.tx.take (Envelope.size (InitHello.size Primitives.small))) (zeros MAX_MESSAGE_LEN)
        txLen := Envelope.size (InitHello.size Primitives.small)
        txRetryAt := 0 + retransmitDelay 0 (Coins.constant 1).jitter
        txCount := 1 }
      initiationRequested := false }] := by
    -- `initiate_handshake` adds no peer
    have hlen := length_peers_of_peerCount (keeps_initiateHandshake (P := Primitives.small) peerCount_handshakeBlind
      ⟨0, Coins.constant 1⟩ ⟨0⟩ ⟨c₀.srv, z⟩)
    rw [hrun₁, Result.state_ok, hpeers₀] at hlen
    exact CryptoServer.peers_eq_singleton hlen hpeer₁
  -- 3. at time 130 the handshake is 50 seconds from dying and its retransmission is long due
  have hlive : EVENT_GRACE ≤ (0 : Timing) + REJECT_AFTER_TIME - 130 := by
    norm_num [EVENT_GRACE, REJECT_AFTER_TIME]
  have hdue : 0 + retransmitDelay 0 (Coins.constant 1).jitter - 130 < EVENT_GRACE := by
    have hretry := (retransmitDelay_mem 0 (Coins.constant 1).jitter).2
    norm_num [RETRANSMIT_DELAY_END, EVENT_GRACE] at hretry ⊢
    linarith
  obtain ⟨c₂, hrun₂, -⟩ := run_poll_single ⟨130, Coins.constant 1⟩ (c := ⟨c₁.srv, zeros MAX_MESSAGE_LEN⟩) hpeers₁
    (Peer.event_of_retransmission_due ⟨0⟩ rfl rfl rfl hlive hdue)
  have hr₀ : r₀ = .ok (SendInitiation ⟨0⟩) c₀ := hrun₀
  have hr₁ : r₁ = .ok len₁ c₁ := by
    show (initiateHandshake _ _ _).run ⟨r₀.state.srv, zeros MAX_MESSAGE_LEN⟩ = _
    rw [hr₀, hz]
    exact hrun₁
  have hr₂ : r₂ = .ok (SendRetransmission ⟨0⟩) c₂ := by
    show (poll _).run ⟨r₁.state.srv, zeros MAX_MESSAGE_LEN⟩ = _
    rw [hr₁]
    exact hrun₂
  refine ⟨by rw [hr₀]; rfl, by rw [hr₁]; rfl, ?_, by rw [hr₂]; rfl, by norm_num [RETRANSMIT_ABORT]⟩
  rw [hr₁, Result.state_ok, hpeers₁]
  rfl

end Rosenpass
