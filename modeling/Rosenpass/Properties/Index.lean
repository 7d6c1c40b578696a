/-
The index of session ids (`register_session`, `unregister_session_if_vacant`,
`IniHsPtr::insert`, `SessionPtr::insert`).

The index maps a session id to the peer that uses it, for the session's own id
(`sidm`) and the handshake's (`sidi`); `lookup_handshake` and `lookup_session` find a
peer by it. The two `insert`s keep it differently. `SessionPtr::insert` takes the old
session first and registers the new id after, so the new id is always indexed.
`IniHsPtr::insert` registers the new id first and takes the old handshake after; when
the old handshake has the same id and the session does not use it, the take finds the
id vacant and drops it, and the live handshake is left out of the index. Its
RespHello is then refused as one for a session that does not exist.
-/
import Rosenpass.Properties.Agreement

namespace Rosenpass

open EStateM

variable {E : Fault → Ctx → Prop} {c : Ctx}

/-! ## `SessionPtr::insert` -/

/-- Registering the id and storing a session in a peer whose slot is empty: the id
points at the peer; or another peer has it, and the slot stays empty. -/
theorem wp_registerSession_store {p : SessionPtr} {ses : Session} {q : Peer}
    (hq : c.srv.peer p.peer.val = .ok q) (hnone : q.session = none) :
    wp (registerSession ses.sidm p.peer)
      (fun _ c' => wp (p.peer.modify fun q => { q with session := some ses })
        (fun _ c'' => c''.srv.index (.Sid ses.sidm) = some p.peer.val ∧
          (c''.srv.peer p.peer.val).map (·.session) = .ok (some ses))
        (fun e c'' => e = .error "Cannot insert session with id \x7b:?\x7d; id is in use." ∧
          (c''.srv.peer p.peer.val).map (·.session) = .ok none) c')
      (fun e c'' => e = .error "Cannot insert session with id \x7b:?\x7d; id is in use." ∧
          (c''.srv.peer p.peer.val).map (·.session) = .ok none) c := by
  simp only [wp_registerSession]
  split
  · split <;> simp_all [Except.map]
  · simp_all [Except.map]

/-- `SessionPtr::insert` leaves the new session's id pointing at its peer. When another
peer has the id it fails, and the old session is gone all the same. -/
theorem SessionPtr.insert_indexes_sidm {p : SessionPtr} {ses : Session} {q : Peer}
    (hq : c.srv.peer p.peer.val = .ok q) :
    wp (p.insert ses)
      (fun _ c' => c'.srv.index (.Sid ses.sidm) = some p.peer.val ∧
        (c'.srv.peer p.peer.val).map (·.session) = .ok (some ses))
      (fun e c' => e = .error "Cannot insert session with id \x7b:?\x7d; id is in use." ∧
        (c'.srv.peer p.peer.val).map (·.session) = .ok none) c := by
  simp only [SessionPtr.insert, SessionPtr.take, wp_bind]
  rw [wp_takeSlot hq]
  have hcleared : (c.srv.updatePeer p.peer.val fun q => { q with session := none }).peer p.peer.val =
      .ok { q with session := none } := by
    simp [hq, Except.map]
  -- whether the old session's id is dropped or kept, the slot is empty when the new id
  -- is registered
  split
  · exact wp_registerSession_store hcleared rfl
  · split <;> exact wp_registerSession_store hcleared rfl

/-! ## `IniHsPtr::insert` -/

/-- `IniHsPtr::insert` of a handshake with the id of the one it replaces, which the
session does not use, takes that id out of the index: it drops the id and stores the
handshake, which is live and not indexed. -/
theorem IniHsPtr.insert_unindexes_reused_sidi {p : IniHsPtr} {hs : InitiatorHandshake} {q : Peer}
    {old : InitiatorHandshake} (hq : c.srv.peer p.peer.val = .ok q) (hold : q.handshake = some old)
    (hsid : old.core.sidi = hs.core.sidi) (hses : ¬ q.session.any (·.sidm == hs.core.sidi))
    (hidx : c.srv.index (.Sid hs.core.sidi) = none ∨ c.srv.index (.Sid hs.core.sidi) = some p.peer.val) :
    wp (p.insert hs)
      (fun _ c' => c' = { c with
        srv := (c.srv.setSid hs.core.sidi none).updatePeer p.peer.val
          fun q => { q with initiationRequested := false, handshake := some hs } })
      (fun _ _ => False) c := by
  -- once the old handshake is out of its slot, nothing of the peer uses the id
  have hfree : ({ q with handshake := none } : Peer).usesSid hs.core.sidi = false := by
    simpa [Peer.usesSid] using hses
  -- the registration adds the id, or finds it already there for this peer; the take then
  -- drops it, and the two changes to the peer are one
  rcases hidx with h | h
  · simp only [IniHsPtr.insert, IniHsPtr.take, wp_bind, wp_registerSession, h]
    rw [wp_takeSlot (q := q) (by simpa using hq)]
    simp [hold, hsid, hfree, hq, Except.map]
    rw [CryptoServer.setSid_updatePeer, CryptoServer.setSid_setSid, CryptoServer.updatePeer_updatePeer]
    rfl
  · simp only [IniHsPtr.insert, IniHsPtr.take, wp_bind, wp_registerSession, h, if_pos]
    rw [wp_takeSlot hq]
    simp [hold, hsid, hfree, hq, Except.map]
    rw [CryptoServer.setSid_updatePeer, CryptoServer.updatePeer_updatePeer]
    rfl

section Initiate

variable {P : Primitives} {env : Env} {p : PeerPtr} {q : Peer}

/-- `initiate_handshake` with a peer whose handshake has the id the new one draws, which
the session does not use and the index has for the peer or not at all: the InitHello of
the initiator's hello goes out, and the new handshake is kept with its id out of the
index. -/
theorem wp_initiateHandshake_reused {old : InitiatorHandshake} (hq : c.srv.peer p.val = .ok q)
    (hold : q.handshake = some old) (hsid : old.core.sidi = draw SESSION_ID_LEN env.coins.sid)
    (hses : ¬ q.session.any (·.sidm == draw SESSION_ID_LEN env.coins.sid))
    (hidx : c.srv.index (.Sid (draw SESSION_ID_LEN env.coins.sid)) = none ∨
      c.srv.index (.Sid (draw SESSION_ID_LEN env.coins.sid)) = some p.val)
    (hlen : Envelope.size (InitHello.size P) ≤ c.tx.length) {Q : Nat → Ctx → Prop}
    (h : ∀ c', InitHelloOf P (Hello.ofInitiator P env c.srv.spkm q) (c'.tx.take (Envelope.size (InitHello.size P))) →
      c'.srv.spkm = c.srv.spkm → c'.srv.sskm = c.srv.sskm →
      c'.srv.index = Function.update c.srv.index (.Sid (draw SESSION_ID_LEN env.coins.sid)) none →
      c'.srv.peer p.val = .ok { q with
        handshake := some { InitiatorHandshake.ofHello P env c.srv.spkm q with
          txBuf := cpyMin (c'.tx.take (Envelope.size (InitHello.size P))) (zeros MAX_MESSAGE_LEN)
          txLen := Envelope.size (InitHello.size P)
          txRetryAt := env.now + retransmitDelay 0 env.coins.jitter
          txCount := 1 }
        initiationRequested := false } →
      Q (Envelope.size (InitHello.size P)) c') :
    wp (initiateHandshake P env p) Q (fun _ _ => False) c :=
  wp_initiateHandshake_of_insert hq hlen
    (I := fun idx => idx = Function.update c.srv.index (.Sid (draw SESSION_ID_LEN env.coins.sid)) none)
    (fun _ => wp_mono (IniHsPtr.insert_unindexes_reused_sidi (by simpa using hq) hold hsid hses hidx)
      (fun _ c₁ hc₁ => by
        subst hc₁
        exact ⟨rfl, rfl, rfl, rfl, by simp [hq, Except.map]⟩)
      fun _ _ h => h.elim) h

variable {srv : CryptoServer} {j : Nat} {tx : Bytes}

/-- The call `initiate_handshake` with a peer whose handshake, if any, has another id than
the one drawn, which the index does not hold: the InitHello of the initiator's hello goes
out, the peer keeps the new handshake with it, the id points at the peer, and no other id
enters the index. -/
theorem initiate_registers (env : Env) (hq : srv.peer j = .ok q)
    (hold : ∀ ho, q.handshake = some ho → ho.core.sidi ≠ draw SESSION_ID_LEN env.coins.sid)
    (hidx : srv.index (.Sid (draw SESSION_ID_LEN env.coins.sid)) = none)
    (hlen : Envelope.size (InitHello.size P) ≤ tx.length) :
    wp ((Op.initiateHandshake ⟨j⟩).exec P env)
      (fun out c' => out.sent c'.tx = some (c'.tx.take (Envelope.size (InitHello.size P))) ∧
        InitHelloOf P (Hello.ofInitiator P env srv.spkm q) (c'.tx.take (Envelope.size (InitHello.size P))) ∧
        c'.srv.spkm = srv.spkm ∧ c'.srv.sskm = srv.sskm ∧
        c'.srv.index (.Sid (draw SESSION_ID_LEN env.coins.sid)) = some j ∧
        (∀ k, k ≠ .Sid (draw SESSION_ID_LEN env.coins.sid) → c'.srv.index k = srv.index k ∨ c'.srv.index k = none) ∧
        c'.srv.peer j = .ok { q with
          handshake := some { InitiatorHandshake.ofHello P env srv.spkm q with
            txBuf := cpyMin (c'.tx.take (Envelope.size (InitHello.size P))) (zeros MAX_MESSAGE_LEN)
            txLen := Envelope.size (InitHello.size P)
            txRetryAt := env.now + retransmitDelay 0 env.coins.jitter
            txCount := 1 }
          initiationRequested := false })
      (fun _ _ => False) ⟨srv, tx⟩ := by
  simp only [Op.exec, wp_map]
  apply wp_initiateHandshake_of_insert hq hlen (I := fun idx => idx (.Sid (draw SESSION_ID_LEN env.coins.sid)) = some j ∧
    ∀ k, k ≠ .Sid (draw SESSION_ID_LEN env.coins.sid) → idx k = srv.index k ∨ idx k = none)
  · intro _
    exact IniHsPtr.wp_insert_fresh (by simpa using hq) hold hidx fun _ hspkm hsskm hidx' hframe hpeer =>
      ⟨rfl, hspkm, hsskm, ⟨hidx', hframe⟩, hpeer⟩
  · intro c' hmsg hspkm hsskm hI hpeer
    exact ⟨rfl, hmsg, hspkm, hsskm, hI.1, hI.2, hpeer⟩

/-- The call `initiate_handshake` with a peer whose handshake has the id drawn, which the
session does not use: the InitHello of the initiator's hello goes out, and the id is out of
the index, while the peer's new handshake has it. -/
theorem initiate_unindexes (env : Env) {old : InitiatorHandshake} (hq : srv.peer j = .ok q)
    (hold : q.handshake = some old) (hsid : old.core.sidi = draw SESSION_ID_LEN env.coins.sid)
    (hses : ¬ q.session.any (·.sidm == draw SESSION_ID_LEN env.coins.sid))
    (hidx : srv.index (.Sid (draw SESSION_ID_LEN env.coins.sid)) = none ∨
      srv.index (.Sid (draw SESSION_ID_LEN env.coins.sid)) = some j)
    (hlen : Envelope.size (InitHello.size P) ≤ tx.length) :
    wp ((Op.initiateHandshake ⟨j⟩).exec P env)
      (fun out c' => out.sent c'.tx = some (c'.tx.take (Envelope.size (InitHello.size P))) ∧
        InitHelloOf P (Hello.ofInitiator P env srv.spkm q) (c'.tx.take (Envelope.size (InitHello.size P))) ∧
        c'.srv.spkm = srv.spkm ∧ c'.srv.sskm = srv.sskm ∧
        c'.srv.index = Function.update srv.index (.Sid (draw SESSION_ID_LEN env.coins.sid)) none ∧
        ∃ hs, c'.srv.peer j = .ok { q with handshake := some hs, initiationRequested := false } ∧
          hs.core.sidi = draw SESSION_ID_LEN env.coins.sid)
      (fun _ _ => False) ⟨srv, tx⟩ := by
  simp only [Op.exec, wp_map]
  apply wp_initiateHandshake_reused hq hold hsid hses hidx hlen
  intro c' hmsg hspkm hsskm hidx' hpeer
  exact ⟨rfl, hmsg, hspkm, hsskm, hidx', _, hpeer, rfl⟩

end Initiate

/-! ## Polling only drops ids -/

/-- Every key out of the index before is out of it after: the index has only lost entries. -/
def IndexShrinks (c c' : Ctx) : Prop := ∀ k, c.srv.index k = none → c'.srv.index k = none

instance indexShrinksRefl : Std.Refl IndexShrinks := ⟨fun _ _ h => h⟩

instance indexShrinksTrans : IsTrans Ctx IndexShrinks := ⟨fun _ _ _ h₁ h₂ k hk => h₂ k (h₁ k hk)⟩

namespace IndexShrinks

theorem of_sameSrv : ∀ c c', SameSrv c c' → IndexShrinks c c' :=
  fun _ _ (h : _ = _) _ hk => h ▸ hk

theorem keeps_modifySrv {f : CryptoServer → CryptoServer}
    (h : ∀ srv k, srv.index k = none → (f srv).index k = none) : Keeps IndexShrinks (modifySrv f) :=
  fun c => show IndexShrinks c { c with srv := f c.srv } from h c.srv

theorem keeps_modify (peer : PeerPtr) (f : Peer → Peer) : Keeps IndexShrinks (peer.modify f) :=
  Keeps.bind (Keeps.mono of_sameSrv (keeps_PeerPtr_get _)) fun _ => keeps_modifySrv fun _ _ h => h

theorem keeps_unregisterSession (id : Bytes) : Keeps IndexShrinks (unregisterSession id) := by
  refine keeps_modifySrv fun srv k hk => ?_
  by_cases hkid : k = .Sid id
  · simp [hkid]
  · simpa [Function.update_of_ne hkid] using hk

theorem keeps_takeSlot {α : Type} {slot : Peer → Option α} {clear : Peer → Peer} {sid : α → Bytes}
    (peer : PeerPtr) : Keeps IndexShrinks (takeSlot slot clear sid peer) :=
  Frame.takeSlot of_sameSrv (keeps_modify peer clear) keeps_unregisterSession

theorem keeps_PeerPtr_poll (env : Env) (peer : PeerPtr) : Keeps IndexShrinks (peer.poll env) :=
  Frame.PeerPtr_poll of_sameSrv (keeps_takeSlot _) (keeps_takeSlot _) (keeps_modify _ _)
    (Frame.modifyHandshake of_sameSrv fun _ => keeps_modify _ _)

/-- `poll` takes handshakes and sessions, and with them their ids, but registers none. -/
theorem keeps_poll (env : Env) : Keeps IndexShrinks (poll env) :=
  Frame.poll of_sameSrv (fun _ _ => keeps_modifySrv fun _ _ h => h) (fun _ _ => keeps_modifySrv fun _ _ h => h)
    (keeps_PeerPtr_poll env) fun _ => keeps_modifySrv fun _ _ h => h

end IndexShrinks

/-! ## Two handshakes under one id -/

/-- Two handshakes started one after the other with the peer `j` (`q`) of the party `a`
under one session id, the first with the peer's handshake slot empty, its session not on
the id and the id out of the index: both calls succeed, and the peer is left with a
handshake under the id, which is out of the index. No id enters the index, and the other
party is as it was. -/
theorem initiate_twice_unindexes {P : Primitives} (hsize : Envelope.size (InitHello.size P) ≤ MAX_MESSAGE_LEN)
    (env₁ env₂ : Env) {n : Net} {j : Nat} {q : Peer} (hq : n.a.peer j = .ok q) (hhs : q.handshake = none)
    (hses : ¬ q.session.any (·.sidm == draw SESSION_ID_LEN env₁.coins.sid))
    (hidx : n.a.index (.Sid (draw SESSION_ID_LEN env₁.coins.sid)) = none)
    (hsid : env₂.coins.sid = env₁.coins.sid) :
    ∃ n' hs, Net.script P [(.initiate .a ⟨j⟩, env₁), (.initiate .a ⟨j⟩, env₂)] n = (n', none) ∧
      n'.a.peer j = .ok { q with handshake := some hs, initiationRequested := false } ∧
      hs.core.sidi = draw SESSION_ID_LEN env₁.coins.sid ∧
      n'.a.index (.Sid (draw SESSION_ID_LEN env₁.coins.sid)) = none ∧
      (∀ k, n.a.index k = none → n'.a.index k = none) ∧ n'.a.spkm = n.a.spkm ∧ n'.b = n.b := by
  obtain ⟨z, hz, hzlen⟩ := exists_zeros_eq MAX_MESSAGE_LEN
  have hroom : Envelope.size (InitHello.size P) ≤ z.length := hzlen ▸ hsize
  have hdraw : draw SESSION_ID_LEN env₂.coins.sid = draw SESSION_ID_LEN env₁.coins.sid := by rw [hsid]
  -- 1. the first initiation registers the id
  obtain ⟨out₁, c₁, hexec₁, hsent₁, -, hspkm₁, -, hidx₁, hframe₁, hpeer₁⟩ :=
    Net.exec_of_wp (s := .a) (initiate_registers env₁ hq (by simp [hhs]) hidx hroom)
  rw [hsent₁] at hexec₁
  -- 2. the second one has the id of the handshake it replaces, and drops it
  obtain ⟨out₂, c₂, hexec₂, hsent₂, -, hspkm₂, -, hidx₂, hs₂, hpeer₂, hsid₂⟩ :=
    Net.exec_of_wp (n := ({ n.setSrv .a c₁.srv with now := env₁.now } : Net).send .b
      (some (c₁.tx.take (Envelope.size (InitHello.size P))))) (s := .a)
      (initiate_unindexes env₂ hpeer₁ rfl hdraw.symm (by simpa [hdraw] using hses)
        (.inr (hdraw ▸ hidx₁)) hroom)
  rw [hsent₂] at hexec₂
  refine ⟨_, hs₂, Net.script_cons_ok hz rfl hexec₁ (Net.script_cons_ok hz rfl hexec₂ rfl), hpeer₂, hsid₂.trans hdraw,
    ?_, fun k hk => ?_, hspkm₂.trans hspkm₁, rfl⟩
  · show c₂.srv.index _ = none
    rw [hidx₂, hdraw, Function.update_self]
  · show c₂.srv.index k = none
    rw [hidx₂]
    by_cases hkd : k = .Sid (draw SESSION_ID_LEN env₂.coins.sid)
    · rw [hkd, Function.update_self]
    · rw [Function.update_of_ne hkd]
      rcases hframe₁ k (hdraw ▸ hkd) with h | h
      · exact h.trans hk
      · exact h

/-- The index left so by two handshakes started with one session id. -/
theorem initiate_twice_unindexes_handshake :
    let n : Net × Option (Nat × Fault) := Net.script Primitives.small
      [(.initiate .a ⟨0⟩, ⟨1, Coins.constant 1⟩), (.initiate .a ⟨0⟩, ⟨2, Coins.constant 1⟩)]
      (Net.pair Primitives.small (Coins.constant 0) (Coins.constant 0) [21] [21] [42] [42] (zeros KEY_LEN))
    n.2 = none ∧
      (n.1.a.peers[0]?.bind (·.handshake)).map (·.core.sidi) = some [1, 1, 1, 1] ∧
      n.1.a.index (.Sid [1, 1, 1, 1]) = none := by
  intro n
  obtain ⟨n', hs, hrun, hpeer, hsidi, hidx, -⟩ := initiate_twice_unindexes (P := Primitives.small) (by decide)
    ⟨1, Coins.constant 1⟩ ⟨2, Coins.constant 1⟩
    (show (Net.pair Primitives.small (Coins.constant 0) (Coins.constant 0) [21] [21] [42] [42] (zeros KEY_LEN)).a.peer 0 =
      .ok (Peer.new (zeros KEY_LEN) [42]) from rfl) rfl (by decide) (by decide +kernel) rfl
  rw [show n = (n', none) from hrun]
  refine ⟨rfl, ?_, hidx⟩
  rw [CryptoServer.peer_eq_ok.1 hpeer, Option.bind_some, Option.map_some, hsidi]
  rfl

/-! ## Handshakes that cannot complete -/

/-- A RespHello for an id the index does not have is refused, and nothing changes. -/
theorem handleRespHello_of_unindexed {P : Primitives} {env : Env} {rx : Bytes}
    (h : c.srv.index (.Sid ((Envelope.field RespHello.sidi).get rx)) = none) :
    wp (handleRespHello P env rx) (fun _ _ => False)
      (fun e c' => e = .error "Got RespHello packet for non-existent session \x7b:?\x7d" ∧ c' = c) c := by
  simp only [handleRespHello, wp_bind, wp_getSrv, wp_liftE, CryptoServer.lookupHandshake, h, wp_bail]
  exact ⟨trivial, trivial⟩

/-- `handle_msg` of a RespHello sealed for the server, whose session id the index does not
hold: refused as one for a session that does not exist, and the server is as it was. -/
theorem wp_handleMsg_respHello_unindexed {P : Primitives} {env : Env} {h : Hello} {r : Resp} {bis rx : Bytes}
    (hrx : RespHelloOf P h r bis rx) (hkey : c.srv.spkm = h.spki) (hidx : c.srv.index (.Sid h.sidi) = none)
    (hlen : Envelope.size InitConf.size ≤ c.tx.length) :
    wp (handleMsg P env rx) (fun _ _ => False)
      (fun e c' => e = .error "Got RespHello packet for non-existent session \x7b:?\x7d" ∧ c'.srv = c.srv) c := by
  obtain ⟨hsent, hsidi, -⟩ := hrx
  have hne : rx ≠ [] := List.ne_nil_of_length_pos (by rw [hsent.1]; simp [Envelope.size])
  have hseal : Envelope.checkSeal P c.srv (RespHello.size P) rx = true :=
    Envelope.checkSeal_of_macFor (hkey ▸ hsent.2.2)
  simp only [handleMsg, wp_bind, wp_ensure, wp_getSrv, hsent.2.1, MsgType.tryFrom_toU8, wp_refNew,
    wp_truncatingCastInto, if_pos hne, hsent.1, hseal, if_true, hlen]
  refine wp_mono (handleRespHello_of_unindexed (by rw [hsidi]; exact hidx)) (fun _ _ h => h.elim) ?_
  rintro e c' ⟨he, rfl⟩
  exact ⟨he, rfl⟩

/-- The in-order handshake of two servers fails at its third message when the initiator's
handshake with the peer `j` (`qa`) already has the id the new one draws and the session
does not use it: the initiation takes the id out of the index, and the RespHello that
names it is refused as one for a session that does not exist. The responder is as in
`handshake_agrees`. -/
theorem handshake_fails_of_reused_sidi {P : Primitives} (hks : P.staticKem.Correct) (ha : P.aead.Correct)
    (hsize : Envelope.size (InitHello.size P) ≤ MAX_MESSAGE_LEN)
    (hsize' : Envelope.size (RespHello.size P) ≤ MAX_MESSAGE_LEN)
    {n : Net} {j i : Nat} {qa qb : Peer} {old : InitiatorHandshake} (hq : n.a.peer j = .ok qa)
    (hpk : qa.spkt = n.b.spkm) (hB : ResponderReady P n.b n.a.spkm qa.psk i qb) {env₁ env₂ env₃ env₄ env₅ : Env}
    (hold : qa.handshake = some old) (hsid : old.core.sidi = draw SESSION_ID_LEN env₁.coins.sid)
    (hses : ¬ qa.session.any (·.sidm == draw SESSION_ID_LEN env₁.coins.sid))
    (hidx : n.a.index (.Sid (draw SESSION_ID_LEN env₁.coins.sid)) = none ∨
      n.a.index (.Sid (draw SESSION_ID_LEN env₁.coins.sid)) = some j)
    (hsidr : n.b.index (.Sid (draw SESSION_ID_LEN env₂.coins.sid)) = none) :
    (Net.script P [(.initiate .a ⟨j⟩, env₁), (.receive .b 0, env₂), (.receive .a 0, env₃),
        (.receive .b 0, env₄), (.receive .a 0, env₅)] n).2 =
      some (2, .error "Got RespHello packet for non-existent session \x7b:?\x7d") := by
  -- every call gets a fresh buffer of `MAX_MESSAGE_LEN` bytes, which stays opaque here
  obtain ⟨z, hz, hzlen⟩ := exists_zeros_eq MAX_MESSAGE_LEN
  have hroom : ∀ {m : Nat}, m ≤ MAX_MESSAGE_LEN → m ≤ z.length := fun hm => hm.trans_eq hzlen.symm
  -- 1. the initiator sends the InitHello, with its id out of the index
  obtain ⟨out₁, c₁, hexec₁, hsent₁, hmsg₁, hspkm₁, -, hidx₁, -⟩ :=
    Net.exec_of_wp (s := .a) (initiate_unindexes env₁ hq hold hsid hses hidx (hroom hsize))
  rw [hsent₁] at hexec₁
  set n₁ : Net := ({ n.setSrv .a c₁.srv with now := env₁.now } : Net).send .b
    (some (c₁.tx.take (Envelope.size (InitHello.size P))))
  -- 2. the responder answers it, as in an exchange that completes
  have hdec : P.staticKem.decaps n.b.sskm (Hello.ofInitiator P env₁ n.a.spkm qa).sctr =
      (Hello.ofInitiator P env₁ n.a.spkm qa).shk := by
    obtain ⟨rnd, hkey⟩ := hB.keys
    simp only [Hello.ofInitiator, hpk]
    exact hks.decaps_encaps hkey _
  obtain ⟨out₂, c₂, hexec₂, hsent₂, bis, hmsg₂, -⟩ :=
    Net.exec_of_wp (n := n₁) (s := .b) (initHello_answered env₂ ha hB hmsg₁ hpk rfl rfl
      (length_draw _ _) hdec hsidr (hroom hsize'))
  rw [hsent₂] at hexec₂
  set n₂ : Net := ({ n₁.setSrv .b c₂.srv with now := env₂.now } : Net).send .a
    (some (c₂.tx.take (Envelope.size (RespHello.size P))))
  -- 3. the initiator finds no handshake under the id the RespHello names
  have hout : c₁.srv.index (.Sid (Hello.ofInitiator P env₁ n.a.spkm qa).sidi) = none := by
    rw [hidx₁]
    exact Function.update_self _ _ _
  obtain ⟨e, c₃, hexec₃, he, -⟩ := @Net.exec_of_wp_error P .a (.handleMsg _) env₃ z n₂ _ (by
      simp only [Op.exec, wp_map]
      exact wp_handleMsg_respHello_unindexed (c := ⟨c₁.srv, z⟩) hmsg₂ hspkm₁ hout (hroom (by decide)))
  rw [he] at hexec₃
  exact Net.script_cons_snd hz rfl hexec₁ (Net.script_cons_snd hz rfl hexec₂ (Net.script_cons_error hz rfl hexec₃))

/-- After two handshakes with one session id, the in-order handshake of the two servers
fails at its third message, with ids that no index holds when they are drawn. -/
theorem handshake_fails_after_repeated_sidi :
    let n : Net × Option (Nat × Fault) := Net.script Primitives.small
      [(.initiate .a ⟨0⟩, ⟨1, Coins.constant 1⟩), (.initiate .a ⟨0⟩, ⟨2, Coins.constant 1⟩)]
      (Net.pair Primitives.small (Coins.constant 0) (Coins.constant 0) [21] [21] [42] [42] (zeros KEY_LEN))
    n.1.a.index (.Sid [1, 1, 1, 1]) = none ∧ n.1.b.index (.Sid [1, 1, 1, 1]) = none ∧
      n.1.a.index (.Sid [2, 2, 2, 2]) = none ∧ n.1.b.index (.Sid [2, 2, 2, 2]) = none ∧
      (Net.script Primitives.small
        [(.initiate .a ⟨0⟩, ⟨3, Coins.constant 1⟩), (.receive .b 0, ⟨4, Coins.constant 2⟩),
         (.receive .a 0, ⟨5, Coins.constant 2⟩), (.receive .b 0, ⟨6, Coins.constant 2⟩),
         (.receive .a 0, ⟨7, Coins.constant 2⟩)] n.1).2 =
        some (2, .error "Got RespHello packet for non-existent session \x7b:?\x7d") := by
  intro n
  obtain ⟨n', hs, hrun, hpeer, hsidi, hidx, hout, hspkm, hb⟩ := initiate_twice_unindexes (P := Primitives.small)
    (by decide) ⟨1, Coins.constant 1⟩ ⟨2, Coins.constant 1⟩
    (show (Net.pair Primitives.small (Coins.constant 0) (Coins.constant 0) [21] [21] [42] [42] (zeros KEY_LEN)).a.peer 0 =
      .ok (Peer.new (zeros KEY_LEN) [42]) from rfl) rfl (by decide) (by decide +kernel) rfl
  rw [show n = (n', none) from hrun]
  -- the responder is the one `make_server_pair` made, ready to answer its peer 0
  have hB : ResponderReady Primitives.small n'.b n'.a.spkm (zeros KEY_LEN) 0 (Peer.new (zeros KEY_LEN) [21]) := by
    rw [hb, hspkm]
    exact ⟨⟨fun _ => 42, rfl⟩, by decide +kernel, rfl, rfl, rfl, by decide +kernel, by decide +kernel,
      by decide +kernel⟩
  have hb₂ : n'.b.index (.Sid [2, 2, 2, 2]) = none := by
    rw [hb]
    decide +kernel
  refine ⟨hidx, by rw [hb]; decide +kernel, hout _ (by decide +kernel), hb₂, ?_⟩
  exact handshake_fails_of_reused_sidi Kem.small_correct Aead.small_correct (by decide) (by decide) hpeer
    (by rw [hb]; rfl) hB rfl hsidi (by simp [Peer.new]) (.inl hidx) hb₂

end Rosenpass
