/-
What `poll` answers, described without running it.

A wait is due when less than `EVENT_GRACE` of it remains (`has_happened(wait, 0)`). The
poll of a peer first erases the peer's handshake if that is due to die (`Peer.pruned`),
and then checks, on what is left and in this order, the death of its session
(`DeleteKey`), an initiation (`SendInitiation`) and the handshake's retransmission
(`SendRetransmission`). `Peer.event` is the first of these that is due. When none is,
the peer's poll answers `Sleep` of the shortest of its waits (`Peer.sleep`), a due death
of the handshake counting as `UNENDING`. The poll of a biscuit key or a cookie secret
erases it when its death is due, and otherwise sleeps until then.

`CryptoServer::poll` polls the keys and the secrets, then the peers from `peer_poll_off`
round, and stops at the first event: `scan` is that answer, computed from the records
as they were before the poll, since each poll changes only what it polls
(`run_PeerPtr_poll`, `run_pollChildren_peers`, `run_poll`).
-/
import Mathlib.Data.List.Nodup
import Mathlib.Data.Nat.ModEq
import Mathlib.Tactic.Linarith
import Mathlib.Tactic.NormNum
import Rosenpass.Protocol.Frame

namespace Rosenpass

open EStateM PollResult

/-! ## The waits of a peer -/

namespace Peer

variable (now : Timing) (q : Peer)

/-- The wait until the handshake dies (`hs.life_left`). -/
def hsDieWait : Timing := Wait.orHibernate (timeLeft now (IniHsPtr.dieAt q))

/-- The wait until the session dies (`ses.life_left`). -/
def sesDieWait : Timing := Wait.orHibernate (timeLeft now (SessionPtr.dieAt q))

/-- The wait until the peer asks for an initiation: never while one is requested, and
not before the session and the handshake have retired. -/
def initWait : Timing :=
  Wait.and (Wait.and (Wait.immediateUnless q.initiationRequested)
    (Wait.orImmediate (timeLeft now (SessionPtr.retireAt q))))
    (Wait.orImmediate (timeLeft now (IniHsPtr.dieAt q)))

/-- The wait until the handshake is retransmitted (`retransmission_in`). -/
def retryWait : Timing := Wait.orHibernate (IniHsPtr.retransmissionIn q now)

/-- The peer once its poll has erased a handshake that is due to die. -/
def pruned : Peer := if hasHappened (q.hsDieWait now) 0 then { q with handshake := none } else q

/-- The event of the peer at `p`: the first of its waits that is due, after the pruning. -/
def event (p : PeerPtr) : Option PollResult :=
  if hasHappened ((q.pruned now).sesDieWait now) 0 then some (DeleteKey p)
  else if hasHappened ((q.pruned now).initWait now) 0 then some (SendInitiation p)
  else if hasHappened ((q.pruned now).retryWait now) 0 then some (SendRetransmission p)
  else none

/-- What the peer's poll sleeps when it has no event. -/
def sleep : Timing :=
  min (min (min (min UNENDING (if hasHappened (q.hsDieWait now) 0 then UNENDING else q.hsDieWait now))
    ((q.pruned now).sesDieWait now)) ((q.pruned now).initWait now)) (min UNENDING ((q.pruned now).retryWait now))

/-- The waits of the peer: the deaths of its handshake and its session, its initiation and
its handshake's retransmission. The poll sleeps no longer than those of `q.pruned now`. -/
def waits : List Timing :=
  [q.hsDieWait now, q.sesDieWait now, q.initWait now, q.retryWait now]

end Peer

/-- The handshake once `register_retransmission` has set its next retransmission. -/
def InitiatorHandshake.registered (env : Env) (hs : InitiatorHandshake) : InitiatorHandshake :=
  { hs with txRetryAt := env.now + retransmitDelay hs.txCount env.coins.jitter, txCount := hs.txCount + 1 }

/-- The peer's record after its poll: pruned, and then changed by its event. -/
def Peer.afterPoll (env : Env) (q : Peer) : Peer :=
  if hasHappened ((q.pruned env.now).sesDieWait env.now) 0 then { q.pruned env.now with session := none }
  else if hasHappened ((q.pruned env.now).initWait env.now) 0 then
    { q.pruned env.now with initiationRequested := true }
  else if hasHappened ((q.pruned env.now).retryWait env.now) 0 then
    { q.pruned env.now with handshake := (q.pruned env.now).handshake.map (·.registered env) }
  else q.pruned env.now

/-! ## Rules for the poll combinators -/

section Rules

variable {Q : PollResult → Ctx → Prop} {E : Fault → Ctx → Prop} {c : Ctx}

@[simp] theorem fold_sleep_sleep (a b : Timing) : (Sleep a).fold (Sleep b) = .ok (Sleep (min a b)) := rfl

theorem fold_sleep_of_saturated (a : Timing) {r : PollResult} (h : r.saturated = true) : (Sleep a).fold r = .ok r := by
  cases r <;> simp_all [fold, saturated]

theorem wp_sched_of_saturated {r : PollResult} (h : r.saturated = true) (w : Timing) (f : ServerM PollResult) :
    wp (r.sched w f) Q E c = Q r c := by
  simp [PollResult.sched, h]

theorem wp_sched_sleep (a w : Timing) (f : ServerM PollResult) :
    wp ((Sleep a).sched w f) Q E c =
      if hasHappened w 0 then wp f (fun r c' => wp (liftE ((Sleep a).fold r)) Q E c') E c
      else Q (Sleep (min a w)) c := by
  simp only [PollResult.sched, saturated, Bool.false_eq_true, if_false]
  split
  · rw [wp_bind]
  · simp

theorem wp_pollChild_of_saturated {r : PollResult} (h : r.saturated = true) (f : ServerM PollResult) :
    wp (r.pollChild f) Q E c = Q r c := by
  simp [PollResult.pollChild, h]

theorem wp_pollChild_sleep (a : Timing) (f : ServerM PollResult) :
    wp ((Sleep a).pollChild f) Q E c = wp f (fun r c' => wp (liftE ((Sleep a).fold r)) Q E c') E c := by
  simp [PollResult.pollChild, saturated]

end Rules

/-! ## The poll of a peer -/

section PeerPoll

variable {env : Env} {p : PeerPtr} {c : Ctx} {q : Peer} {E : Fault → Ctx → Prop}

/-- The first `sched`: a handshake due to die is erased, with its id. -/
theorem wp_pruneHandshake (hq : c.srv.peer p.val = .ok q) {Q : PollResult → Ctx → Prop}
    (h : ∀ c', c'.srv.peer p.val = .ok (q.pruned env.now) →
      Q (Sleep (min UNENDING (if hasHappened (q.hsDieWait env.now) 0 then UNENDING else q.hsDieWait env.now))) c') :
    wp (hibernate.sched (q.hsDieWait env.now) (do let _ ← p.hs.take; pure hibernate)) Q E c := by
  rw [hibernate, wp_sched_sleep]
  by_cases hd : hasHappened (q.hsDieWait env.now) 0
  · -- the handshake is taken; the id it held may leave the index
    have hpr : q.pruned env.now = { q with handshake := none } := by simp [Peer.pruned, hd]
    simp only [hd, if_true, wp_bind, IniHsPtr.take, PeerPtr.hs_peer] at h ⊢
    rw [wp_takeSlot hq]
    simp only [wp_pure, fold_sleep_sleep, wp_liftE]
    have hpeer : (c.srv.updatePeer p.val fun q => { q with handshake := none }).peer p.val = .ok (q.pruned env.now) := by
      simp [hq, hpr, Except.map]
    split
    · exact h _ hpeer
    · split
      · exact h _ hpeer
      · exact h _ (by rw [CryptoServer.peer_setSid]; exact hpeer)
  · have hpr : q.pruned env.now = q := by simp [Peer.pruned, hd]
    simp only [hd, if_false, Bool.false_eq_true] at h ⊢
    exact h c (by rw [hpr]; exact hq)

/-- `UNENDING` is never due. -/
theorem not_hasHappened_unending : hasHappened UNENDING 0 = false := by
  norm_num [hasHappened, UNENDING, EVENT_GRACE]

/-- A wait that is due is not the `UNENDING` of something absent. -/
theorem isSome_of_orHibernate {t : Option Timing} (h : hasHappened (Wait.orHibernate t) 0 = true) :
    t.isSome = true := by
  cases t with
  | none => simp [Wait.orHibernate, Wait.hibernate, not_hasHappened_unending] at h
  | some _ => rfl

/-- The second `sched`: the session is taken when it is due to die. -/
theorem wp_deleteKey (hq : c.srv.peer p.val = .ok q) (s : Timing) {Q : PollResult → Ctx → Prop}
    (hdue : hasHappened (q.sesDieWait env.now) 0 → ∀ c', c'.srv.peer p.val = .ok { q with session := none } →
      Q (DeleteKey p) c')
    (hnot : hasHappened (q.sesDieWait env.now) 0 = false → Q (Sleep (min s (q.sesDieWait env.now))) c) :
    wp ((Sleep s).sched (q.sesDieWait env.now) (do let _ ← p.session.take; pure (DeleteKey p))) Q E c := by
  rw [wp_sched_sleep]
  split
  · next hd =>
    simp only [wp_bind, SessionPtr.take, PeerPtr.session_peer]
    rw [wp_takeSlot hq]
    simp only [wp_pure, fold_sleep_of_saturated s (rfl : (DeleteKey p).saturated = true), wp_liftE]
    have hpeer : (c.srv.updatePeer p.val fun q => { q with session := none }).peer p.val =
        .ok { q with session := none } := by
      simp [hq, Except.map]
    split
    · exact hdue hd _ hpeer
    · split
      · exact hdue hd _ hpeer
      · exact hdue hd _ (by rw [CryptoServer.peer_setSid]; exact hpeer)
  · next hd => exact hnot (by simpa using hd)

/-- The third `sched`: an initiation is requested when it is due. -/
theorem wp_requestInitiation (hq : c.srv.peer p.val = .ok q) (s : Timing) {Q : PollResult → Ctx → Prop}
    (hdue : hasHappened (q.initWait env.now) 0 → ∀ c',
      c'.srv.peer p.val = .ok { q with initiationRequested := true } → Q (SendInitiation p) c')
    (hnot : hasHappened (q.initWait env.now) 0 = false → Q (Sleep (min s (q.initWait env.now))) c) :
    wp ((Sleep s).sched (q.initWait env.now)
      (do p.modify fun q => { q with initiationRequested := true }; pure (SendInitiation p))) Q E c := by
  rw [wp_sched_sleep]
  split
  · next hd =>
    simp only [wp_bind, wp_PeerPtr_modify, hq, wp_pure,
      fold_sleep_of_saturated s (rfl : (SendInitiation p).saturated = true), wp_liftE]
    exact hdue hd _ (by simp [hq, Except.map])
  · next hd => exact hnot (by simpa using hd)

/-- The handshake's poll: a retransmission, registered, when it is due. -/
theorem wp_IniHsPtr_poll (hq : c.srv.peer p.val = .ok q) {Q : PollResult → Ctx → Prop}
    (hdue : hasHappened (q.retryWait env.now) 0 → ∀ c',
      c'.srv.peer p.val = .ok { q with handshake := q.handshake.map (·.registered env) } →
      Q (SendRetransmission p) c')
    (hnot : hasHappened (q.retryWait env.now) 0 = false → Q (Sleep (min UNENDING (q.retryWait env.now))) c) :
    wp (p.hs.poll env) Q E c := by
  simp only [IniHsPtr.poll, wp_bind, wp_PeerPtr_get, PeerPtr.hs_peer, hq]
  rw [hibernate, wp_sched_sleep]
  split
  · next hd =>
    -- a due retransmission has a handshake to register it on
    obtain ⟨hs, hhs⟩ := Option.isSome_iff_exists.1 (isSome_of_orHibernate hd)
    simp only [IniHsPtr.retransmissionIn, Option.map_eq_some_iff] at hhs
    obtain ⟨h, hh, -⟩ := hhs
    simp only [IniHsPtr.registerRetransmission, IniHsPtr.modifyHandshake, wp_bind, wp_PeerPtr_get,
      PeerPtr.hs_peer, hq, hh, wp_PeerPtr_modify, wp_pure,
      fold_sleep_of_saturated UNENDING (rfl : (SendRetransmission p).saturated = true), wp_liftE]
    exact hdue hd _ (by simp [hq, hh, Except.map, InitiatorHandshake.registered])
  · next hd => exact hnot (by simpa [Peer.retryWait] using hd)

/-- The poll of a peer answers its event, or sleeps its shortest wait, and leaves the peer
as `Peer.afterPoll` says. -/
theorem wp_PeerPtr_poll (hq : c.srv.peer p.val = .ok q) :
    wp (p.poll env) (fun r c' => r = (q.event env.now p).getD (Sleep (q.sleep env.now)) ∧
      c'.srv.peer p.val = .ok (q.afterPoll env)) E c := by
  simp only [PeerPtr.poll, wp_bind, wp_PeerPtr_get, hq]
  refine wp_pruneHandshake hq fun c₁ hq₁ => ?_
  simp only [hq₁]
  refine wp_deleteKey hq₁ _ (fun hd c₂ hq₂ => ?_) (fun hd => ?_)
  · -- the session died: the answer is passed on by the two calls after it
    simp only [hq₂, wp_sched_of_saturated (rfl : (DeleteKey p).saturated = true),
      wp_pollChild_of_saturated (rfl : (DeleteKey p).saturated = true), Peer.event, Peer.afterPoll, hd, if_true,
      Option.getD_some, and_self]
  simp only [hq₁]
  refine wp_requestInitiation hq₁ _ (fun hi c₃ hq₃ => ?_) (fun hi => ?_)
  · simp only [wp_pollChild_of_saturated (rfl : (SendInitiation p).saturated = true), Peer.event, Peer.afterPoll,
      hd, hi, hq₃, Bool.false_eq_true, if_false, if_true, Option.getD_some, and_self]
  rw [wp_pollChild_sleep]
  refine wp_IniHsPtr_poll hq₁ (fun hr c₄ hq₄ => ?_) (fun hr => ?_)
  · simp only [fold_sleep_of_saturated _ (rfl : (SendRetransmission p).saturated = true), wp_liftE,
      Peer.event, Peer.afterPoll, hd, hi, hr, hq₄, Bool.false_eq_true, if_false, if_true, Option.getD_some, and_self]
  · simp only [fold_sleep_sleep, wp_liftE, Peer.event, Peer.afterPoll, hd, hi, hr, hq₁, Bool.false_eq_true, if_false,
      Option.getD_none, Peer.sleep, and_self]

/-! ### Only the polled peer changes -/

theorem OnlyPeer.keeps_PeerPtr_poll : Keeps (OnlyPeer p.val) (p.poll env) :=
  Frame.PeerPtr_poll OnlyPeer.of_sameSrv (OnlyPeer.keeps_IniHsPtr_take _) (OnlyPeer.keeps_takeSlot p)
    (OnlyPeer.keeps_modify _ _) (Frame.modifyHandshake OnlyPeer.of_sameSrv fun _ => OnlyPeer.keeps_modify _ _)

/-! ### A peer's poll leaves the stores alone -/

/-- The biscuit keys, the cookie secrets and where polling starts are as they were. -/
def SameStores (c c' : Ctx) : Prop :=
  c'.srv.biscuitKeys = c.srv.biscuitKeys ∧ c'.srv.cookieSecrets = c.srv.cookieSecrets ∧
    c'.srv.peerPollOff = c.srv.peerPollOff

instance : Std.Refl SameStores := ⟨fun _ => ⟨rfl, rfl, rfl⟩⟩

instance : IsTrans Ctx SameStores :=
  ⟨fun _ _ _ h₁ h₂ => ⟨h₂.1.trans h₁.1, h₂.2.1.trans h₁.2.1, h₂.2.2.trans h₁.2.2⟩⟩

theorem SameStores.of_sameSrv : ∀ c c', SameSrv c c' → SameStores c c' :=
  fun _ _ (h : _ = _) => by simp only [SameStores, h, and_self]

/-- A change to the peers or the index of session ids keeps the stores. -/
theorem SameStores.keeps_modifySrv {f : CryptoServer → CryptoServer}
    (h : ∀ srv, (f srv).biscuitKeys = srv.biscuitKeys ∧ (f srv).cookieSecrets = srv.cookieSecrets ∧
      (f srv).peerPollOff = srv.peerPollOff) : Keeps SameStores (modifySrv f) :=
  fun c => show SameStores c { c with srv := f c.srv } from h c.srv

theorem SameStores.keeps_modify (peer : PeerPtr) (f : Peer → Peer) : Keeps SameStores (peer.modify f) :=
  Keeps.bind (Keeps.mono SameStores.of_sameSrv (keeps_PeerPtr_get _)) fun _ =>
    SameStores.keeps_modifySrv fun _ => ⟨rfl, rfl, rfl⟩

theorem SameStores.keeps_takeSlot {α : Type} {slot : Peer → Option α} {clear : Peer → Peer}
    {sid : α → Bytes} (peer : PeerPtr) : Keeps SameStores (takeSlot slot clear sid peer) :=
  Frame.takeSlot SameStores.of_sameSrv (SameStores.keeps_modify peer clear) fun _ =>
    SameStores.keeps_modifySrv fun _ => ⟨rfl, rfl, rfl⟩

theorem SameStores.keeps_PeerPtr_poll : Keeps SameStores (p.poll env) :=
  Frame.PeerPtr_poll SameStores.of_sameSrv (SameStores.keeps_takeSlot _) (SameStores.keeps_takeSlot _)
    (SameStores.keeps_modify _ _) (Frame.modifyHandshake SameStores.of_sameSrv fun _ => SameStores.keeps_modify _ _)

/-- The run of a peer's poll: its event or its sleep, and only the peer changed, to
`Peer.afterPoll`. -/
theorem run_PeerPtr_poll (hq : c.srv.peer p.val = .ok q) :
    ∃ c', (p.poll env).run c = .ok ((q.event env.now p).getD (Sleep (q.sleep env.now))) c' ∧
      c'.srv.peers = c.srv.peers.set p.val (q.afterPoll env) ∧ SameStores c c' := by
  have hk : OnlyPeer p.val c ((p.poll env).run c).state := OnlyPeer.keeps_PeerPtr_poll c
  have hs : SameStores c ((p.poll env).run c).state := SameStores.keeps_PeerPtr_poll c
  have hw : wp (p.poll env) (fun r c' => r = (q.event env.now p).getD (Sleep (q.sleep env.now)) ∧
      c'.srv.peer p.val = .ok (q.afterPoll env)) (fun _ _ => False) c := wp_PeerPtr_poll hq
  obtain ⟨r, c', hrun, hr, hq'⟩ := run_of_wp hw
  rw [hrun, Result.state_ok] at hk hs
  refine ⟨c', by rw [hrun, hr], ?_, hs⟩
  -- the polled peer is at its place, every other peer as it was
  apply List.ext_getElem?
  intro j
  by_cases hj : j = p.val
  · subst hj
    have hlt : p.val < c.srv.peers.length := (List.getElem?_eq_some_iff.1 (CryptoServer.peer_eq_ok.1 hq)).1
    rw [CryptoServer.peer_eq_ok.1 hq', List.getElem?_set_self hlt]
  · rw [hk.2 j hj, List.getElem?_set_ne (Ne.symm hj)]

end PeerPoll

/-! ## The poll of every peer -/

/-- The answer of polling the peers of `ps` one after another from the sleep `a`, each
on the record it has before the poll: the first event, or the shortest wait. -/
def scan (now : Timing) : Timing → List (PeerPtr × Peer) → PollResult
  | a, [] => Sleep a
  | a, (p, q) :: ps =>
    match q.event now p with
    | some e => e
    | none => scan now (min a (q.sleep now)) ps

/-- The peers a scan polls: up to the first that has an event. -/
def scanned (now : Timing) : List (PeerPtr × Peer) → List (PeerPtr × Peer)
  | [] => []
  | (p, q) :: ps =>
    match q.event now p with
    | some _ => [(p, q)]
    | none => (p, q) :: scanned now ps

/-- The peers once the scanned ones are polled. -/
def afterScan (env : Env) (ps : List (PeerPtr × Peer)) (peers : List Peer) : List Peer :=
  (scanned env.now ps).foldl (fun l pq => l.set pq.1.val (pq.2.afterPoll env)) peers

theorem Peer.saturated_of_event {now : Timing} {p : PeerPtr} {q : Peer} {e : PollResult}
    (h : q.event now p = some e) : e.saturated = true := by
  unfold Peer.event at h
  split_ifs at h <;> cases h <;> rfl

theorem run_pollChildren_of_saturated {α : Type} {poll : α → ServerM PollResult} {r : PollResult}
    (h : r.saturated = true) (l : List α) (c : Ctx) : (pollChildren poll r l).run c = .ok r c := by
  cases l <;> simp [pollChildren, h]

section Peers

variable (env : Env)

/-- Polling the peers one after another answers `scan` and leaves `afterScan`: a peer's
poll changes only that peer, so every later peer is polled on the record it had before. -/
theorem run_pollChildren_peers : ∀ (ps : List (PeerPtr × Peer)) (a : Timing) (c : Ctx),
    (ps.map (·.1.val)).Nodup → (∀ pq ∈ ps, c.srv.peer pq.1.val = .ok pq.2) →
    ∃ c', (pollChildren (PeerPtr.poll env) (Sleep a) (ps.map (·.1))).run c = .ok (scan env.now a ps) c' ∧
      c'.srv.peers = afterScan env ps c.srv.peers ∧ SameStores c c'
  | [], _, c, _, _ => ⟨c, rfl, rfl, refl_of _ c⟩
  | (p, q) :: ps, a, c, hnd, hps => by
    obtain ⟨c₁, hrun, hpeers₁, hs₁⟩ := run_PeerPtr_poll (hps (p, q) List.mem_cons_self)
    rw [List.map_cons, pollChildren, if_neg (by simp [saturated]), run_bind_of_ok hrun]
    cases he : q.event env.now p with
    | some e =>
      -- an event ends the scan
      have hsat := Peer.saturated_of_event he
      rw [Option.getD_some, run_bind_of_ok (by rw [fold_sleep_of_saturated a hsat]; rfl)]
      exact ⟨c₁, by rw [scan, he, run_pollChildren_of_saturated hsat], by simp [afterScan, scanned, he, hpeers₁], hs₁⟩
    | none =>
      -- the later peers are polled on their records from before
      have hps' : ∀ pq ∈ ps, c₁.srv.peer pq.1.val = .ok pq.2 := by
        intro pq hpq
        have hne : pq.1.val ≠ p.val := by
          intro h
          have hmem : pq.1.val ∈ ps.map (·.1.val) := List.mem_map_of_mem hpq
          rw [h] at hmem
          exact (List.nodup_cons.1 hnd).1 hmem
        rw [CryptoServer.peer_eq_ok, hpeers₁, List.getElem?_set_ne (Ne.symm hne), ← CryptoServer.peer_eq_ok]
        exact hps pq (List.mem_cons_of_mem _ hpq)
      obtain ⟨c', h', hpeers', hs'⟩ :=
        run_pollChildren_peers ps (min a (q.sleep env.now)) c₁ (List.nodup_cons.1 hnd).2 hps'
      rw [Option.getD_none, run_bind_of_ok (by rw [fold_sleep_sleep]; rfl)]
      refine ⟨c', by rw [scan, he]; exact h', ?_, Trans.trans hs₁ hs'⟩
      rw [hpeers', hpeers₁]
      simp [afterScan, scanned, he]

end Peers

theorem scanned_sublist {now : Timing} : ∀ ps : List (PeerPtr × Peer), (scanned now ps).Sublist ps
  | [] => List.Sublist.slnil
  | (p, q) :: ps => by
    cases he : q.event now p with
    | some e => simp [scanned, he]
    | none => simpa [scanned, he] using scanned_sublist ps

/-- The peers scanned up to an event: those before it, and it. -/
theorem scanned_of_event {now : Timing} {p : PeerPtr} {q : Peer} {e : PollResult} (post : List (PeerPtr × Peer))
    (he : q.event now p = some e) :
    ∀ pre : List (PeerPtr × Peer), (∀ pq ∈ pre, pq.2.event now pq.1 = none) →
      scanned now (pre ++ (p, q) :: post) = pre ++ [(p, q)]
  | [], _ => by simp [scanned, he]
  | (p', q') :: pre, hpre => by
    have h' : q'.event now p' = none := hpre (p', q') List.mem_cons_self
    simp only [List.cons_append, scanned, h']
    rw [scanned_of_event post he pre fun pq hpq => hpre pq (List.mem_cons_of_mem _ hpq)]

section AfterScan

variable (env : Env)

/-- A peer that is not polled keeps its record. -/
theorem getElem?_foldl_afterPoll_of_not_mem : ∀ (xs : List (PeerPtr × Peer)) (l : List Peer) (j : Nat),
    (∀ pq ∈ xs, pq.1.val ≠ j) → (xs.foldl (fun l pq => l.set pq.1.val (pq.2.afterPoll env)) l)[j]? = l[j]?
  | [], _, _, _ => rfl
  | x :: xs, l, j, h => by
    rw [List.foldl_cons, getElem?_foldl_afterPoll_of_not_mem xs _ j fun pq hpq => h pq (List.mem_cons_of_mem _ hpq),
      List.getElem?_set_ne (h x List.mem_cons_self)]

/-- A polled peer holds the record its poll leaves. -/
theorem getElem?_foldl_afterPoll : ∀ (xs : List (PeerPtr × Peer)) (l : List Peer) {pq : PeerPtr × Peer},
    (xs.map (·.1.val)).Nodup → pq ∈ xs → pq.1.val < l.length →
    (xs.foldl (fun l pq => l.set pq.1.val (pq.2.afterPoll env)) l)[pq.1.val]? = some (pq.2.afterPoll env)
  | [], _, _, _, h, _ => absurd h List.not_mem_nil
  | x :: xs, l, pq, hnd, hmem, hlt => by
    rw [List.foldl_cons]
    rcases List.mem_cons.1 hmem with rfl | hmem
    · -- the later polls are of other peers
      rw [getElem?_foldl_afterPoll_of_not_mem env xs _ _ fun pq' hpq' h => ?_, List.getElem?_set_self hlt]
      exact (List.nodup_cons.1 hnd).1 (List.mem_map.2 ⟨pq', hpq', h⟩)
    · exact getElem?_foldl_afterPoll xs _ (List.nodup_cons.1 hnd).2 hmem (by rw [List.length_set]; exact hlt)

theorem getElem?_afterScan {ps : List (PeerPtr × Peer)} {l : List Peer} {pq : PeerPtr × Peer}
    (hnd : (ps.map (·.1.val)).Nodup) (hpq : pq ∈ scanned env.now ps) (hlt : pq.1.val < l.length) :
    (afterScan env ps l)[pq.1.val]? = some (pq.2.afterPoll env) :=
  getElem?_foldl_afterPoll env _ l (hnd.sublist ((scanned_sublist ps).map _)) hpq hlt

end AfterScan

/-! ## The polls of the biscuit keys and cookie secrets -/

/-- The wait until a biscuit key or a cookie secret dies. -/
def CookieStore.dieWait (epoch now : Timing) (s : CookieStore) : Timing :=
  Wait.orHibernate (timeLeft now (s.dieAt epoch))

/-- What the poll of a store sleeps: until it dies, or `UNENDING` once it is erased. -/
def CookieStore.sleep (epoch now : Timing) (s : CookieStore) : Timing :=
  min UNENDING (if hasHappened (s.dieWait epoch now) 0 then UNENDING else s.dieWait epoch now)

theorem wp_pollStore {get : CryptoServer → CookieStore} {erase : CryptoServer → CryptoServer}
    {epoch now : Timing} {c : Ctx} {Q : PollResult → Ctx → Prop} {E : Fault → Ctx → Prop} :
    wp (pollStore get erase epoch now) Q E c =
      Q (Sleep ((get c.srv).sleep epoch now))
        (if hasHappened ((get c.srv).dieWait epoch now) 0 then { c with srv := erase c.srv } else c) := by
  simp only [pollStore, wp_bind, wp_getSrv, hibernate, wp_sched_sleep]
  by_cases hd : hasHappened ((get c.srv).dieWait epoch now) 0
  · simp only [CookieStore.dieWait] at hd
    simp [CookieStore.sleep, CookieStore.dieWait, hd]
  · simp only [CookieStore.dieWait, Bool.not_eq_true] at hd
    simp [CookieStore.sleep, CookieStore.dieWait, hd]

theorem run_pollStore {get : CryptoServer → CookieStore} {erase : CryptoServer → CryptoServer}
    {epoch now : Timing} (c : Ctx) :
    (pollStore get erase epoch now).run c = .ok (Sleep ((get c.srv).sleep epoch now))
      (if hasHappened ((get c.srv).dieWait epoch now) 0 then { c with srv := erase c.srv } else c) := by
  obtain ⟨r, c', hrun, hr, hc'⟩ := run_of_wp (x := pollStore get erase epoch now)
    (Q := fun r c' => r = Sleep ((get c.srv).sleep epoch now) ∧
      c' = if hasHappened ((get c.srv).dieWait epoch now) 0 then { c with srv := erase c.srv } else c)
    (by rw [wp_pollStore]; exact ⟨rfl, rfl⟩)
  rw [hrun, hr, hc']

/-- A store after its poll: erased once its death is due. -/
def CookieStore.afterPoll (epoch now : Timing) (r : Rand) (s : CookieStore) : CookieStore :=
  if hasHappened (s.dieWait epoch now) 0 then s.erase r else s

section Stores

variable {α β : Type} (poll : α → ServerM PollResult) (get : α → CryptoServer → CookieStore)
  (erase : α → CryptoServer → CryptoServer) (rand : α → Rand) (view : CryptoServer → β) (epoch now : Timing)

/-- The polls of distinct stores, each of which erases only itself and keeps what `view`
sees: the shortest of their sleeps, each read before the polls, and each polled store
as `CookieStore.afterPoll` says. -/
theorem run_pollChildren_stores (hpoll : ∀ k, poll k = pollStore (get k) (erase k) epoch now)
    (hself : ∀ k srv, get k (erase k srv) = (get k srv).erase (rand k))
    (hget : ∀ k j srv, j ≠ k → get j (erase k srv) = get j srv) (hview : ∀ k srv, view (erase k srv) = view srv) :
    ∀ (l : List α) (a : Timing) (c : Ctx), l.Nodup →
      ∃ c', (pollChildren poll (Sleep a) l).run c =
          .ok (Sleep (l.foldl (fun a k => min a ((get k c.srv).sleep epoch now)) a)) c' ∧
        view c'.srv = view c.srv ∧ (∀ k ∈ l, get k c'.srv = (get k c.srv).afterPoll epoch now (rand k)) ∧
        ∀ k, k ∉ l → get k c'.srv = get k c.srv
  | [], a, c, _ => ⟨c, rfl, rfl, by simp, fun _ _ => rfl⟩
  | k :: l, a, c, hnd => by
    -- the store's poll changes only the store
    let c₁ := if hasHappened ((get k c.srv).dieWait epoch now) 0 then { c with srv := erase k c.srv } else c
    have hk₁ : get k c₁.srv = (get k c.srv).afterPoll epoch now (rand k) := by
      simp only [c₁, CookieStore.afterPoll]
      split
      · exact hself k c.srv
      · rfl
    have hget₁ : ∀ j, j ≠ k → get j c₁.srv = get j c.srv := by
      intro j hne
      simp only [c₁]
      split
      · exact hget k j c.srv hne
      · rfl
    have hview₁ : view c₁.srv = view c.srv := by
      simp only [c₁]
      split
      · exact hview k c.srv
      · rfl
    have hkl : k ∉ l := (List.nodup_cons.1 hnd).1
    obtain ⟨c', hrun, hv, hin, hout⟩ := run_pollChildren_stores hpoll hself hget hview l
      (min a ((get k c.srv).sleep epoch now)) c₁ (List.nodup_cons.1 hnd).2
    refine ⟨c', ?_, hv.trans hview₁, ?_, ?_⟩
    · rw [pollChildren, if_neg (by simp [saturated]), hpoll, run_bind_of_ok (run_pollStore c),
        run_bind_of_ok (by rw [fold_sleep_sleep]; rfl), hrun, List.foldl_cons]
      rw [List.foldl_ext _ (fun a j => min a ((get j c.srv).sleep epoch now)) _ fun a j hj => by
        rw [hget₁ j fun h => hkl (h ▸ hj)]]
    · intro j hj
      rcases List.mem_cons.1 hj with rfl | hj
      · rw [hout j hkl, hk₁]
      · have hne : j ≠ k := fun h => hkl (h ▸ hj)
        rw [hin j hj, hget₁ j hne]
    · intro j hj
      have hne : j ≠ k := fun h => hj (h ▸ List.mem_cons_self)
      rw [hout j fun h => hj (List.mem_cons_of_mem _ h), hget₁ j hne]

end Stores

/-! ## The whole poll -/

namespace CryptoServer

/-- The peers in the order `poll` visits them (`peer_ptrs_off(peer_poll_off)`), each with
its record. -/
def peerOrder (srv : CryptoServer) : List (PeerPtr × Peer) :=
  (List.finRange srv.peers.length).map fun i =>
    (⟨(i.val + srv.peerPollOff) % srv.peers.length⟩,
      srv.peers.get ⟨(i.val + srv.peerPollOff) % srv.peers.length, Nat.mod_lt _ i.pos⟩)

/-- What the polls of the two biscuit keys and then the two cookie secrets sleep. -/
def storesSleep (now : Timing) (srv : CryptoServer) : Timing :=
  [(⟨0⟩ : ServerCookieSecretPtr), ⟨1⟩].foldl (fun a k => min a ((srv.cookieSecrets k.val).sleep COOKIE_SECRET_EPOCH now))
    ([(⟨0⟩ : BiscuitKeyPtr), ⟨1⟩].foldl (fun a k => min a ((srv.biscuitKeys k.val).sleep BISCUIT_EPOCH now)) UNENDING)

theorem map_fst_peerOrder (srv : CryptoServer) :
    srv.peerOrder.map (·.1) = peerPtrsOff srv.peers.length srv.peerPollOff := by
  rw [peerOrder, peerPtrsOff, List.map_map, ← List.map_coe_finRange_eq_range, List.map_map]
  rfl

theorem peer_of_mem_peerOrder {srv : CryptoServer} {pq : PeerPtr × Peer} (h : pq ∈ srv.peerOrder) :
    srv.peer pq.1.val = .ok pq.2 := by
  obtain ⟨i, -, rfl⟩ := List.mem_map.1 h
  rw [peer_eq_ok]
  exact List.getElem?_eq_getElem _

/-- `peer_ptrs_off` visits every peer once. -/
theorem nodup_peerPtrsOff (l n : Nat) : ((peerPtrsOff l n).map (·.val)).Nodup := by
  rw [peerPtrsOff, List.map_map]
  refine List.Nodup.map_on (fun i hi j hj hij => ?_) List.nodup_range
  have hmod : Nat.ModEq l (i + n) (j + n) := hij
  exact Nat.ModEq.eq_of_lt_of_lt (Nat.ModEq.add_right_cancel' n hmod) (List.mem_range.1 hi) (List.mem_range.1 hj)

theorem nodup_peerOrder (srv : CryptoServer) : (srv.peerOrder.map (·.1.val)).Nodup := by
  have hmap : srv.peerOrder.map (·.1.val) = (srv.peerOrder.map (·.1)).map (·.val) := by
    rw [List.map_map]
    rfl
  rw [hmap, map_fst_peerOrder]
  exact nodup_peerPtrsOff _ _

end CryptoServer

/-- `poll` answers `scan` over the peers in their order, from the stores' sleep; it never
fails. It erases the stores whose death is due, leaves the peers as `afterScan` says,
and starts the next poll after the peer it answers for. -/
theorem run_poll (env : Env) (c : Ctx) :
    ∃ c', (poll env).run c = .ok (scan env.now (c.srv.storesSleep env.now) c.srv.peerOrder) c' ∧
      c'.srv.peers = afterScan env c.srv.peerOrder c.srv.peers ∧
      (∀ k, c'.srv.biscuitKeys k = (c.srv.biscuitKeys k).afterPoll BISCUIT_EPOCH env.now (env.coins.biscuitKey k)) ∧
      (∀ k, c'.srv.cookieSecrets k =
        (c.srv.cookieSecrets k).afterPoll COOKIE_SECRET_EPOCH env.now (env.coins.cookieSecret k)) ∧
      c'.srv.peerPollOff = match (scan env.now (c.srv.storesSleep env.now) c.srv.peerOrder).peer with
        | some p => p.val + 1
        | none => 0 := by
  -- the biscuit keys: the cookie secrets and the peers stay as they were
  obtain ⟨c₁, h₁, hv₁, hk₁, -⟩ := run_pollChildren_stores (BiscuitKeyPtr.poll env)
    (fun k srv => srv.biscuitKeys k.val)
    (fun k srv => srv.updateBiscuitKey k.val (·.erase (env.coins.biscuitKey k.val)))
    (fun k => env.coins.biscuitKey k.val)
    (fun srv => (srv.cookieSecrets, srv.peers, srv.peerPollOff)) BISCUIT_EPOCH env.now (fun _ => rfl)
    (fun k srv => Function.update_self _ _ _)
    (fun k j srv hne => Function.update_of_ne (fun h => hne (by cases j; cases k; cases h; rfl)) _ _)
    (fun _ _ => rfl) [⟨0⟩, ⟨1⟩] UNENDING c (by decide)
  simp only [Prod.mk.injEq] at hv₁
  -- the cookie secrets: the peers stay as they were
  obtain ⟨c₂, h₂, hv₂, hs₂, -⟩ := run_pollChildren_stores (ServerCookieSecretPtr.poll env)
    (fun k srv => srv.cookieSecrets k.val)
    (fun k srv => srv.updateCookieSecret k.val (·.erase (env.coins.cookieSecret k.val)))
    (fun k => env.coins.cookieSecret k.val)
    (fun srv => (srv.biscuitKeys, srv.peers, srv.peerPollOff)) COOKIE_SECRET_EPOCH env.now (fun _ => rfl)
    (fun k srv => Function.update_self _ _ _)
    (fun k j srv hne => Function.update_of_ne (fun h => hne (by cases j; cases k; cases h; rfl)) _ _)
    (fun _ _ => rfl) [⟨0⟩, ⟨1⟩]
    ([(⟨0⟩ : BiscuitKeyPtr), ⟨1⟩].foldl (fun a k => min a ((c.srv.biscuitKeys k.val).sleep BISCUIT_EPOCH env.now)) UNENDING)
    c₁ (by decide)
  simp only [Prod.mk.injEq, hv₁.1] at hv₂ h₂ hs₂
  -- the peers, on their records from before the poll
  have hps : ∀ pq ∈ c.srv.peerOrder, c₂.srv.peer pq.1.val = .ok pq.2 := by
    intro pq hpq
    rw [CryptoServer.peer_eq_ok, hv₂.2.1, hv₁.2.1, ← CryptoServer.peer_eq_ok]
    exact CryptoServer.peer_of_mem_peerOrder hpq
  obtain ⟨c₃, h₃, hp₃, hs₃⟩ :=
    run_pollChildren_peers env c.srv.peerOrder (c.srv.storesSleep env.now) c₂ (CryptoServer.nodup_peerOrder _) hps
  have hoff : peerPtrsOff c₂.srv.peers.length c₂.srv.peerPollOff = c.srv.peerOrder.map (·.1) := by
    rw [hv₂.2.1, hv₂.2.2, hv₁.2.1, hv₁.2.2, CryptoServer.map_fst_peerOrder]
  have hkeys : ∀ k, c₂.srv.biscuitKeys k = (c.srv.biscuitKeys k).afterPoll BISCUIT_EPOCH env.now (env.coins.biscuitKey k) := by
    intro k
    rw [hv₂.1]
    rcases (by omega : k = 0 ∨ k = 1) with rfl | rfl
    · exact hk₁ ⟨0⟩ (by simp)
    · exact hk₁ ⟨1⟩ (by simp)
  have hsecrets : ∀ k, c₂.srv.cookieSecrets k =
      (c.srv.cookieSecrets k).afterPoll COOKIE_SECRET_EPOCH env.now (env.coins.cookieSecret k) := by
    intro k
    rcases (by omega : k = 0 ∨ k = 1) with rfl | rfl
    · exact hs₂ ⟨0⟩ (by simp)
    · exact hs₂ ⟨1⟩ (by simp)
  unfold CryptoServer.storesSleep at h₃ ⊢
  refine ⟨{ c₃ with srv := { c₃.srv with peerPollOff := match (scan env.now _ c.srv.peerOrder).peer with
    | some p => p.val + 1
    | none => 0 } }, ?_, ?_, ?_, ?_, rfl⟩
  · rw [poll, PollResult.hibernate, run_bind_of_ok h₁, run_bind_of_ok h₂, run_bind_of_ok (run_getSrv c₂), hoff,
      run_bind_of_ok h₃]
    rfl
  · rw [← hv₁.2.1, ← hv₂.2.1]
    exact hp₃
  · intro k
    rw [← hkeys k]
    exact congrFun hs₃.1 k
  · intro k
    rw [← hsecrets k]
    exact congrFun hs₃.2.1 k

/-! ## What the answer says -/

theorem grace_le_of_not_hasHappened {w : Timing} (h : hasHappened w 0 = false) : EVENT_GRACE ≤ w := by
  simpa [hasHappened] using h

theorem lt_grace_of_hasHappened {w : Timing} (h : hasHappened w 0 = true) : w < EVENT_GRACE := by
  simpa [hasHappened] using h

theorem grace_le_unending : EVENT_GRACE ≤ UNENDING := by
  norm_num [EVENT_GRACE, UNENDING]

/-- `Wait::and` is the later of its two waits. -/
theorem Wait.le_and_left (a b : Timing) : a ≤ Wait.and a b := by
  unfold Wait.and
  split_ifs with h
  · exact le_rfl
  · exact not_lt.1 h

theorem Wait.le_and_right (a b : Timing) : b ≤ Wait.and a b := by
  unfold Wait.and
  split_ifs with h
  · exact le_of_lt h
  · exact le_rfl

namespace Peer

variable {now : Timing} {q : Peer} {p : PeerPtr}

/-- Once pruned, a peer whose handshake was due to die has none left to die. -/
theorem hsDieWait_pruned :
    (q.pruned now).hsDieWait now = if hasHappened (q.hsDieWait now) 0 then UNENDING else q.hsDieWait now := by
  unfold pruned
  split <;> rfl

@[simp] theorem initiationRequested_pruned : (q.pruned now).initiationRequested = q.initiationRequested := by
  unfold pruned
  split <;> rfl

/-- The peer's poll sleeps no longer than any wait of the pruned peer. -/
theorem sleep_le_of_mem_waits {w : Timing} (hw : w ∈ (q.pruned now).waits now) : q.sleep now ≤ w := by
  simp only [waits, List.mem_cons, List.not_mem_nil, or_false] at hw
  rcases hw with rfl | rfl | rfl | rfl
  · rw [hsDieWait_pruned]
    unfold sleep
    split <;> simp [*]
  all_goals unfold sleep; simp

/-- A peer with no event sleeps at least `EVENT_GRACE`: each wait it sleeps on is not due. -/
theorem grace_le_sleep (h : q.event now p = none) : EVENT_GRACE ≤ q.sleep now := by
  unfold event at h
  split_ifs at h with hs hi hr
  simp only [Bool.not_eq_true] at hs hi hr
  have hh : EVENT_GRACE ≤ (if hasHappened (q.hsDieWait now) 0 then UNENDING else q.hsDieWait now) := by
    split_ifs with hd
    · exact grace_le_unending
    · exact grace_le_of_not_hasHappened (Bool.eq_false_iff.2 hd)
  unfold sleep
  exact le_min (le_min (le_min (le_min grace_le_unending hh) (grace_le_of_not_hasHappened hs))
    (grace_le_of_not_hasHappened hi)) (le_min grace_le_unending (grace_le_of_not_hasHappened hr))

/-- An event is about the peer it is the event of. -/
theorem peer_of_event {e : PollResult} (h : q.event now p = some e) : e.peer = some p := by
  unfold event at h
  split_ifs at h <;> cases h <;> rfl

/-- A requested initiation is never requested again: its wait is `UNENDING`. -/
theorem initiationRequested_of_event {p' : PeerPtr} (h : q.event now p = some (SendInitiation p')) :
    q.initiationRequested = false := by
  unfold event at h
  split_ifs at h with hs hi
  · cases h
  · by_contra hreq
    have hU : UNENDING ≤ (q.pruned now).initWait now := by
      unfold initWait
      calc UNENDING = Wait.immediateUnless (q.pruned now).initiationRequested := by
            simp [Bool.not_eq_false] at hreq
            simp [hreq, Wait.immediateUnless, Wait.hibernate]
        _ ≤ _ := Wait.le_and_left _ _
        _ ≤ _ := Wait.le_and_left _ _
    have hlt := lt_grace_of_hasHappened hi
    have := grace_le_unending
    linarith
  all_goals cases h

end Peer

/-- A scan that ends in a sleep found no event. It sleeps no longer than where it started
or than any peer's sleep, and its sleep is one of these. -/
theorem scan_eq_sleep {now : Timing} : ∀ {a d : Timing} {ps : List (PeerPtr × Peer)}, scan now a ps = Sleep d →
    (∀ pq ∈ ps, pq.2.event now pq.1 = none) ∧ d ≤ a ∧ (∀ pq ∈ ps, d ≤ pq.2.sleep now) ∧
      (d = a ∨ ∃ pq ∈ ps, d = pq.2.sleep now)
  | a, d, [], h => by
    rw [scan] at h
    cases h
    simp
  | a, d, (p, q) :: ps, h => by
    cases he : q.event now p with
    | some e =>
      -- an event is an action, not a sleep
      have hsat := Peer.saturated_of_event he
      simp only [scan, he] at h
      simp [h, saturated] at hsat
    | none =>
      simp only [scan, he] at h
      obtain ⟨hev, hda, hdq, hd⟩ := scan_eq_sleep h
      refine ⟨?_, hda.trans (min_le_left _ _), ?_, ?_⟩
      · intro pq hpq
        rcases List.mem_cons.1 hpq with rfl | hpq
        · exact he
        · exact hev pq hpq
      · intro pq hpq
        rcases List.mem_cons.1 hpq with rfl | hpq
        · exact hda.trans (min_le_right _ _)
        · exact hdq pq hpq
      · rcases hd with rfl | ⟨pq, hpq, rfl⟩
        · rcases min_choice a (q.sleep now) with hm | hm
          · exact .inl hm
          · exact .inr ⟨(p, q), List.mem_cons_self, hm⟩
        · exact .inr ⟨pq, List.mem_cons_of_mem _ hpq, rfl⟩

/-- A scan that ends in an action answers the event of the first peer that has one. -/
theorem scan_eq_event {now : Timing} : ∀ {a : Timing} {ps : List (PeerPtr × Peer)}, (scan now a ps).saturated = true →
    ∃ pre p q post, ps = pre ++ (p, q) :: post ∧ (∀ pq ∈ pre, pq.2.event now pq.1 = none) ∧
      q.event now p = some (scan now a ps)
  | a, [], h => by simp [scan, saturated] at h
  | a, (p, q) :: ps, h => by
    cases he : q.event now p with
    | some e => exact ⟨[], p, q, ps, rfl, by simp, by simp [scan, he]⟩
    | none =>
      -- the peer has nothing to do: the answer comes from the peers after it
      have hs : scan now a ((p, q) :: ps) = scan now (min a (q.sleep now)) ps := by simp [scan, he]
      rw [hs] at h ⊢
      obtain ⟨pre, p', q', post, hps, hpre, hq'⟩ := scan_eq_event h
      refine ⟨(p, q) :: pre, p', q', post, by rw [hps]; rfl, ?_, hq'⟩
      intro pq hpq
      rcases List.mem_cons.1 hpq with rfl | hpq
      · exact he
      · exact hpre pq hpq

namespace CookieStore

variable {epoch now : Timing} (s : CookieStore)

theorem grace_le_sleep : EVENT_GRACE ≤ s.sleep epoch now := by
  unfold sleep
  refine le_min grace_le_unending ?_
  split_ifs with hd
  · exact grace_le_unending
  · exact grace_le_of_not_hasHappened (Bool.eq_false_iff.2 hd)

theorem sleep_le_dieWait (h : hasHappened (s.dieWait epoch now) 0 = false) : s.sleep epoch now ≤ s.dieWait epoch now := by
  unfold sleep
  simp [h]

end CookieStore

namespace CryptoServer

variable {now : Timing} (srv : CryptoServer)

theorem grace_le_storesSleep : EVENT_GRACE ≤ srv.storesSleep now := by
  simp only [storesSleep, List.foldl_cons, List.foldl_nil]
  exact le_min (le_min (le_min (le_min grace_le_unending (CookieStore.grace_le_sleep _)) (CookieStore.grace_le_sleep _))
    (CookieStore.grace_le_sleep _)) (CookieStore.grace_le_sleep _)

theorem storesSleep_le_unending : srv.storesSleep now ≤ UNENDING := by
  simp [storesSleep]

theorem storesSleep_le_biscuitKey (k : Fin 2)
    (h : hasHappened ((srv.biscuitKeys k).dieWait BISCUIT_EPOCH now) 0 = false) :
    srv.storesSleep now ≤ (srv.biscuitKeys k).dieWait BISCUIT_EPOCH now := by
  have hk := CookieStore.sleep_le_dieWait _ h
  simp only [storesSleep, List.foldl_cons, List.foldl_nil]
  rcases (by omega : k = 0 ∨ k = 1) with rfl | rfl <;> simp [hk]

theorem storesSleep_le_cookieSecret (k : Fin 2)
    (h : hasHappened ((srv.cookieSecrets k).dieWait COOKIE_SECRET_EPOCH now) 0 = false) :
    srv.storesSleep now ≤ (srv.cookieSecrets k).dieWait COOKIE_SECRET_EPOCH now := by
  have hk := CookieStore.sleep_le_dieWait _ h
  simp only [storesSleep, List.foldl_cons, List.foldl_nil]
  rcases (by omega : k = 0 ∨ k = 1) with rfl | rfl <;> simp [hk]

/-- Every peer is in the poll's order. -/
theorem exists_add_mod_eq {l i : Nat} (n : Nat) (hi : i < l) : ∃ j < l, (j + n) % l = i := by
  have hl : n % l < l := Nat.mod_lt _ (by omega)
  have hn : n % l + l * (n / l) = n := Nat.mod_add_div n l
  refine ⟨(i + (l - n % l)) % l, Nat.mod_lt _ (by omega), ?_⟩
  calc ((i + (l - n % l)) % l + n) % l = (i + (l - n % l) + n) % l := Nat.mod_add_mod _ _ _
    _ = (i + l * (n / l + 1)) % l := by
      congr 1
      rw [Nat.mul_add, Nat.mul_one]
      omega
    _ = i := by rw [Nat.add_mul_mod_self_left, Nat.mod_eq_of_lt hi]

theorem mem_peerOrder {srv : CryptoServer} {i : Nat} {q : Peer} (h : srv.peers[i]? = some q) :
    (⟨i⟩, q) ∈ srv.peerOrder := by
  obtain ⟨hi, rfl⟩ := List.getElem?_eq_some_iff.1 h
  obtain ⟨j, hj, hji⟩ := exists_add_mod_eq srv.peerPollOff hi
  refine List.mem_map.2 ⟨⟨j, hj⟩, List.mem_finRange _, ?_⟩
  simp only [hji]
  rfl

end CryptoServer

/-- An action of `poll` is the event of the peer it names, on the record from before the
poll, and that peer is left as its poll leaves it. -/
theorem run_poll_answer (env : Env) (c : Ctx) :
    ∃ c', (poll env).run c = .ok (scan env.now (c.srv.storesSleep env.now) c.srv.peerOrder) c' ∧
      ∀ (p : PeerPtr) (q : Peer), (scan env.now (c.srv.storesSleep env.now) c.srv.peerOrder).peer = some p →
        c.srv.peers[p.val]? = some q →
        q.event env.now p = some (scan env.now (c.srv.storesSleep env.now) c.srv.peerOrder) ∧
        c'.srv.peers[p.val]? = some (q.afterPoll env) := by
  obtain ⟨c', hrun, hpeers, -⟩ := run_poll env c
  refine ⟨c', hrun, fun p q hp hq => ?_⟩
  have hsat : (scan env.now (c.srv.storesSleep env.now) c.srv.peerOrder).saturated = true := by
    revert hp
    cases scan env.now (c.srv.storesSleep env.now) c.srv.peerOrder <;> simp [PollResult.peer, saturated]
  obtain ⟨pre, p', q', post, hord, hpre, hev⟩ := scan_eq_event hsat
  have hpp : p = p' := by
    have h := Peer.peer_of_event hev
    rw [hp] at h
    exact Option.some.inj h
  subst hpp
  -- the record in the order is the peer's
  have hmem : (p, q') ∈ c.srv.peerOrder := by simp [hord]
  have hq' := CryptoServer.peer_of_mem_peerOrder hmem
  rw [CryptoServer.peer_eq_ok, hq] at hq'
  have hqq : q = q' := by simpa using hq'
  subst hqq
  refine ⟨hev, ?_⟩
  have hsc : (p, q) ∈ scanned env.now c.srv.peerOrder := by
    rw [hord, scanned_of_event post hev pre hpre]
    simp
  rw [hpeers]
  exact getElem?_afterScan env (CryptoServer.nodup_peerOrder _) hsc (List.getElem?_eq_some_iff.1 hq).1

end Rosenpass
