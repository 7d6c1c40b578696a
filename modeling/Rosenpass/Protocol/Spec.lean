/-
What each step of the model does, as rules for symbolic execution.

The `wp_*` lemmas say what the weakest precondition of each basic operation of
`ServerM` is; with `EStateM.wp_bind` they let `simp` run a handler step by step and
leave, at each branch, what has to hold of the state it ends in. The functions of the
database get exact `run` lemmas: their result and their final state as functions of
where they start. The frame lemmas say what an operation leaves alone: most of the
model writes only the transmit buffer, so the server stays as it was (`SameSrv`).
-/
import Rosenpass.Protocol.Run

namespace Rosenpass

open EStateM Buffer

variable {P : Primitives}

/-! ## Basic operations -/

section Basic

variable {α : Type} {E : Fault → Ctx → Prop} {c : Ctx}

@[simp] theorem wp_getCtx {Q : Ctx → Ctx → Prop} : wp (get : ServerM Ctx) Q E c = Q c c := rfl

@[simp] theorem wp_getSrv {Q : CryptoServer → Ctx → Prop} : wp getSrv Q E c = Q c.srv c := rfl

@[simp] theorem wp_modifySrv {Q : Unit → Ctx → Prop} (f : CryptoServer → CryptoServer) :
    wp (modifySrv f) Q E c = Q () { c with srv := f c.srv } := rfl

@[simp] theorem wp_modifyTx {Q : Unit → Ctx → Prop} (f : Bytes → Bytes) :
    wp (modifyTx f) Q E c = Q () { c with tx := f c.tx } := rfl

@[simp] theorem wp_writePayload {Q : Unit → Ctx → Prop} (f : Field) (v : Bytes) :
    wp (writePayload f v) Q E c = Q () { c with tx := (Envelope.field f).set v c.tx } := rfl

@[simp] theorem wp_bail {Q : α → Ctx → Prop} (msg : String) :
    wp (bail msg : ServerM α) Q E c = E (.error msg) c := rfl

@[simp] theorem wp_ensure {Q : Unit → Ctx → Prop} (p : Prop) [Decidable p] (msg : String) :
    wp (ensure p msg) Q E c = if p then Q () c else E (.error msg) c := by
  unfold ensure
  split <;> rfl

@[simp] theorem wp_liftE {Q : α → Ctx → Prop} (x : Except Fault α) :
    wp (liftE x) Q E c = match x with
      | .ok a => Q a c
      | .error e => E e c := by
  cases x <;> rfl

@[simp] theorem wp_PeerPtr_get {Q : Peer → Ctx → Prop} (p : PeerPtr) :
    wp p.get Q E c = match c.srv.peer p.val with
      | .ok q => Q q c
      | .error e => E e c := by
  rcases h : c.srv.peer p.val with e | q
  · exact wp_eq_of_run_error (by simp [PeerPtr.get, getSrv, h])
  · exact wp_eq_of_run_ok (PeerPtr.run_get h)

@[simp] theorem wp_PeerPtr_modify {Q : Unit → Ctx → Prop} (p : PeerPtr) (f : Peer → Peer) :
    wp (p.modify f) Q E c = match c.srv.peer p.val with
      | .ok _ => Q () { c with srv := c.srv.updatePeer p.val f }
      | .error e => E e c := by
  rcases h : c.srv.peer p.val with e | q <;> simp [PeerPtr.modify, h]

@[simp] theorem wp_refNew {Q : Unit → Ctx → Prop} (rx : Bytes) (size : Nat) :
    wp (refNew rx size) Q E c =
      if rx.length = size then Q () c else E (.error RosenpassError.BufferSizeMismatch.msg) c := by
  simp only [refNew, wp_ensure]

@[simp] theorem wp_truncatingCastInto {Q : Unit → Ctx → Prop} (size : Nat) :
    wp (truncatingCastInto size) Q E c =
      if size ≤ c.tx.length then Q () c else E (.panic "range end index out of range for slice") c := by
  simp only [truncatingCastInto, slicePrefix, wp_bind, wp_getCtx, wp_liftE]
  by_cases h : size ≤ c.tx.length <;> simp [h]

end Basic

/-! ## The index -/

section Index

variable {E : Fault → Ctx → Prop} {c : Ctx} {Q : Unit → Ctx → Prop}

/-- The server with the session id `id` pointing at `v` in its index. -/
abbrev CryptoServer.setSid (srv : CryptoServer) (id : Bytes) (v : Option Nat) : CryptoServer :=
  { srv with index := Function.update srv.index (.Sid id) v }

@[simp] theorem CryptoServer.peer_setSid (srv : CryptoServer) (id : Bytes) (v : Option Nat) (i : Nat) :
    (srv.setSid id v).peer i = srv.peer i := rfl

/-- A change to a peer and one to the index are independent. -/
theorem CryptoServer.setSid_updatePeer (srv : CryptoServer) (id : Bytes) (v : Option Nat) (i : Nat) (f : Peer → Peer) :
    (srv.updatePeer i f).setSid id v = (srv.setSid id v).updatePeer i f := rfl

theorem CryptoServer.setSid_setSid (srv : CryptoServer) (id : Bytes) (v w : Option Nat) :
    (srv.setSid id v).setSid id w = srv.setSid id w := by
  simp only [CryptoServer.setSid, Function.update_idem]

@[simp] theorem wp_registerSession (id : Bytes) (peer : PeerPtr) :
    wp (registerSession id peer) Q E c = match c.srv.index (.Sid id) with
      | some p => if p = peer.val then Q () c else E (.error "Cannot insert session with id \x7b:?\x7d; id is in use.") c
      | none => Q () { c with srv := c.srv.setSid id (some peer.val) } := by
  simp only [registerSession, wp_bind, wp_getSrv]
  cases c.srv.index (.Sid id) with
  | none => rfl
  | some p => simp only [wp_ite, wp_pure, wp_bail]

@[simp] theorem wp_unregisterSession (id : Bytes) :
    wp (unregisterSession id) Q E c = Q () { c with srv := c.srv.setSid id none } := rfl

@[simp] theorem wp_unregisterSessionIfVacant (id : Bytes) (peer : PeerPtr) :
    wp (unregisterSessionIfVacant id peer) Q E c = match c.srv.peer peer.val with
      | .ok q => if q.usesSid id then Q () c else Q () { c with srv := c.srv.setSid id none }
      | .error e => E e c := by
  simp only [unregisterSessionIfVacant, wp_bind, wp_PeerPtr_get]
  cases c.srv.peer peer.val with
  | error e => rfl
  | ok q => simp only [wp_ite, wp_pure, wp_unregisterSession]

theorem CryptoServer.lookupSession_of_index {srv : CryptoServer} {id : Bytes} {peer : PeerPtr} {q : Peer}
    (hidx : srv.index (.Sid id) = some peer.val) (hq : srv.peer peer.val = .ok q) :
    srv.lookupSession id = .ok (if q.session.any (·.sidm == id) then some peer.session else none) := by
  simp only [lookupSession, hidx, hq]
  rfl

theorem CryptoServer.lookupHandshake_of_index {srv : CryptoServer} {id : Bytes} {peer : PeerPtr} {q : Peer}
    (hidx : srv.index (.Sid id) = some peer.val) (hq : srv.peer peer.val = .ok q) :
    srv.lookupHandshake id = .ok (if q.handshake.any (·.core.sidi == id) then some peer.hs else none) := by
  simp only [lookupHandshake, hidx, hq]
  rfl

/-- Taking a slot of a peer: the slot is cleared, and the id of what it held leaves the
index unless the peer still uses it. -/
theorem wp_takeSlot {α : Type} {slot : Peer → Option α} {clear : Peer → Peer} {sid : α → Bytes}
    {peer : PeerPtr} {q : Peer} (hq : c.srv.peer peer.val = .ok q) {Q : Option α → Ctx → Prop} :
    wp (takeSlot slot clear sid peer) Q E c =
      match slot q with
      | none => Q none { c with srv := c.srv.updatePeer peer.val clear }
      | some stale =>
        if (clear q).usesSid (sid stale) then Q (some stale) { c with srv := c.srv.updatePeer peer.val clear }
        else Q (some stale) { c with srv := (c.srv.updatePeer peer.val clear).setSid (sid stale) none } := by
  simp only [takeSlot, wp_bind, wp_PeerPtr_get, hq, wp_PeerPtr_modify]
  cases slot q with
  | none => rfl
  | some stale => simp [hq, Except.map]

/-- `take()` leaves the peer with the slot cleared, whatever it does to the index. -/
theorem wp_takeSlot_of_peer {α : Type} {slot : Peer → Option α} {clear : Peer → Peer} {sid : α → Bytes}
    {peer : PeerPtr} {q : Peer} (hq : c.srv.peer peer.val = .ok q) {Q : Option α → Ctx → Prop}
    (h : ∀ srv' : CryptoServer, srv'.spkm = c.srv.spkm → srv'.peer peer.val = .ok (clear q) →
      Q (slot q) { c with srv := srv' }) :
    wp (takeSlot slot clear sid peer) Q E c := by
  have hpeer : (c.srv.updatePeer peer.val clear).peer peer.val = .ok (clear q) := by
    simp [hq, Except.map]
  rw [wp_takeSlot hq]
  split
  · next hs => exact hs ▸ h _ (by simp) hpeer
  · next hs =>
    split
    · exact hs ▸ h _ (by simp) hpeer
    · exact hs ▸ h _ (by simp) hpeer

end Index

/-! ## Biscuits -/

/-- What `store_biscuit` may do to the server: consume a biscuit number and re-randomize
at most one biscuit key, and nothing else. -/
def BiscuitStep (env : Env) (srv srv' : CryptoServer) : Prop :=
  srv' = { srv with biscuitCtr := ConstantTime.increment srv.biscuitCtr } ∨
  ∃ k : BiscuitKeyPtr, srv' = ({ srv with biscuitCtr := ConstantTime.increment srv.biscuitCtr } :
    CryptoServer).updateBiscuitKey k.val (·.randomize (env.coins.biscuitKey k.val) env.now)

theorem BiscuitStep.peers {env : Env} {srv srv' : CryptoServer} (h : BiscuitStep env srv srv') :
    srv'.peers = srv.peers := by
  rcases h with rfl | ⟨k, rfl⟩ <;> rfl

theorem BiscuitStep.biscuitCtr {env : Env} {srv srv' : CryptoServer} (h : BiscuitStep env srv srv') :
    srv'.biscuitCtr = ConstantTime.increment srv.biscuitCtr := by
  rcases h with rfl | ⟨k, rfl⟩ <;> rfl

theorem BiscuitStep.spkm {env : Env} {srv srv' : CryptoServer} (h : BiscuitStep env srv srv') :
    srv'.spkm = srv.spkm := by
  rcases h with rfl | ⟨k, rfl⟩ <;> rfl

theorem BiscuitStep.index {env : Env} {srv srv' : CryptoServer} (h : BiscuitStep env srv srv') :
    srv'.index = srv.index := by
  rcases h with rfl | ⟨k, rfl⟩ <;> rfl

theorem BiscuitStep.peer {env : Env} {srv srv' : CryptoServer} (h : BiscuitStep env srv srv') (i : Nat) :
    srv'.peer i = srv.peer i := by
  simp only [CryptoServer.peer, h.peers]

section Biscuits

variable {env : Env} {c : Ctx} {E : Fault → Ctx → Prop}

/-- `active_biscuit_key` returns a key, and leaves it as it was or re-randomizes it. -/
theorem wp_activeBiscuitKey {Q : BiscuitKeyPtr → Ctx → Prop}
    (h : ∀ k : BiscuitKeyPtr, Q k c ∧
      Q k { c with srv := c.srv.updateBiscuitKey k.val (·.randomize (env.coins.biscuitKey k.val) env.now) }) :
    wp (activeBiscuitKey env) Q E c := by
  simp only [activeBiscuitKey, wp_bind, wp_getSrv, wp_ite, wp_pure, wp_modifySrv]
  split_ifs <;> first | exact (h _).1 | exact (h _).2

/-- `ct` is a biscuit as `store_biscuit` makes it for the handshake `hs` of the peer with
id `pid`, on the server `srv`, which it leaves as `srv'`: the peer's id, the biscuit number
of `srv` and the chaining key, encrypted under the key of `srv'` that the nonce's first bit
names, with the session ids as additional data. -/
def BiscuitOf (P : Primitives) (srv srv' : CryptoServer) (hs : HandshakeState) (pid ct : Bytes) : Prop :=
  ∃ n, n.length = XAEAD_NONCE_LEN ∧
    ct = P.xaeadEncrypt (srv'.biscuitKeys (HandshakeState.biscuitKeyOf ct).val).value n
      (HandshakeState.biscuitAd P srv.spkm hs.sidi hs.sidr)
      (Biscuit.ck.set hs.ck (Biscuit.biscuitNo.set srv.biscuitCtr (Biscuit.pidi.set pid (zeros BISCUIT_PT_LEN))))

/-- The number in the biscuit of the RespHello `m`, as the server `srv` opens it: under the
biscuit key the biscuit's first bit names, with the session ids beside it as additional
data, as `load_biscuit` does when an InitConf brings them back. -/
def carriedNo (P : Primitives) (srv : CryptoServer) (m : Bytes) : Option Bytes :=
  let rh (f : Field) := (Envelope.field f).get m
  let ct := rh (RespHello.biscuit P)
  match P.xaeadDecrypt (srv.biscuitKeys (HandshakeState.biscuitKeyOf ct).val).value
      (HandshakeState.biscuitAd P srv.spkm (rh RespHello.sidi) (rh RespHello.sidr)) ct with
  | .ok pt => some (Biscuit.biscuitNo.get pt)
  | .error _ => none

section BiscuitOf

variable {srv srv' : CryptoServer} {hs : HandshakeState} {pid ct : Bytes}

theorem BiscuitOf.length (h : BiscuitOf P srv srv' hs pid ct) (hpid : pid.length = KEY_LEN)
    (hno : srv.biscuitCtr.length = BISCUIT_ID_LEN) (hck : hs.ck.length = KEY_LEN) :
    ct.length = BISCUIT_CT_LEN := by
  obtain ⟨n, hn, hct⟩ := h
  rw [hct, Primitives.length_xaeadEncrypt, hn, HandshakeState.length_biscuitPt hpid hno hck]
  simp only [BISCUIT_CT_LEN]
  omega

/-- A biscuit `store_biscuit` made opens, on the server it left, to the number it was
made with, in any message that carries it beside its session ids. -/
theorem BiscuitOf.carriedNo (h : BiscuitOf P srv srv' hs pid ct) (hx : P.xaead.Correct)
    (hpid : pid.length = KEY_LEN) (hno : srv.biscuitCtr.length = BISCUIT_ID_LEN) (hck : hs.ck.length = KEY_LEN)
    (hspkm : srv'.spkm = srv.spkm) {m : Bytes} (hb : (Envelope.field (RespHello.biscuit P)).get m = ct)
    (hi : (Envelope.field RespHello.sidi).get m = hs.sidi) (hr : (Envelope.field RespHello.sidr).get m = hs.sidr) :
    carriedNo P srv' m = some srv.biscuitCtr := by
  obtain ⟨n, hn, hct⟩ := h
  have hopen : P.xaeadDecrypt (srv'.biscuitKeys (HandshakeState.biscuitKeyOf ct).val).value
      (HandshakeState.biscuitAd P srv.spkm hs.sidi hs.sidr) ct =
        .ok (Biscuit.ck.set hs.ck (Biscuit.biscuitNo.set srv.biscuitCtr (Biscuit.pidi.set pid (zeros BISCUIT_PT_LEN)))) := by
    conv => lhs; arg 4; rw [hct]
    exact P.xaeadDecrypt_xaeadEncrypt hx hn _ _ _
  simp only [Rosenpass.carriedNo, hb, hi, hr, hspkm, hopen, HandshakeState.biscuitNo_biscuitPt hpid hno hck]

end BiscuitOf

/-- `store_biscuit` of a peer that exists: a biscuit of the current number, and a
`BiscuitStep` of the server. -/
theorem wp_storeBiscuit {hs : HandshakeState} {peer : PeerPtr} {q : Peer}
    (hq : c.srv.peer peer.val = .ok q) {Q : (Bytes × HandshakeState) → Ctx → Prop}
    (h : ∀ ct c', c'.tx = c.tx → BiscuitStep env c.srv c'.srv → BiscuitOf P c.srv c'.srv hs (q.pidt P) ct →
      Q (ct, hs.mix P ct) c') :
    wp (hs.storeBiscuit P env peer) Q E c := by
  simp only [HandshakeState.storeBiscuit, wp_bind, wp_PeerPtr_get, hq, wp_getSrv, wp_modifySrv]
  apply wp_activeBiscuitKey
  intro k
  simp only [wp_pure]
  -- the key is read after the rotation, from the state the call leaves
  have hof : ∀ srv' : CryptoServer, BiscuitOf P c.srv srv' hs (q.pidt P)
      (P.xaeadEncrypt (srv'.biscuitKeys k.val).value (HandshakeState.markNonce (draw XAEAD_NONCE_LEN env.coins.nonce) k)
        (HandshakeState.biscuitAd P c.srv.spkm hs.sidi hs.sidr)
        (Biscuit.ck.set hs.ck (Biscuit.biscuitNo.set c.srv.biscuitCtr
          (Biscuit.pidi.set (q.pidt P) (zeros BISCUIT_PT_LEN))))) := by
    intro srv'
    refine ⟨HandshakeState.markNonce (draw XAEAD_NONCE_LEN env.coins.nonce) k, by simp, ?_⟩
    rw [HandshakeState.biscuitKeyOf_xaeadEncrypt]
  exact ⟨h _ _ rfl (.inl rfl) (hof _), h _ _ rfl (.inr ⟨k, rfl⟩) (hof _)⟩

end Biscuits

/-! ## Frames -/

/-- The call left the server as it was. -/
def SameSrv (c c' : Ctx) : Prop := c'.srv = c.srv

instance : Std.Refl SameSrv := ⟨fun _ => rfl⟩

instance : IsTrans Ctx SameSrv := ⟨fun _ _ _ h₁ h₂ => h₂.trans h₁⟩

section Seal

variable {c : Ctx} {E : Fault → Ctx → Prop}

/-- A write to the envelope outside its type and its payload keeps both, and the length. -/
theorem seal_write {n : Nat} {g : Field} {v tx : Bytes} (hv : v.length = g.len) (hg : g.stop ≤ Envelope.size n)
    (hty : g.Disjoint Envelope.msgType) (hpl : ∀ f : Field, f.stop ≤ n → (Envelope.field f).Disjoint g)
    (hlen : Envelope.size n ≤ tx.length) :
    (g.set v tx).length = tx.length ∧ Envelope.msgType.get (g.set v tx) = Envelope.msgType.get tx ∧
      ∀ f : Field, f.stop ≤ n → (Envelope.field f).get (g.set v tx) = (Envelope.field f).get tx := by
  have hb : g.stop ≤ tx.length := hg.trans hlen
  exact ⟨Field.length_set g hv hb, Field.get_set_of_disjoint hty.symm hv hb,
    fun f hf => Field.get_set_of_disjoint (hpl f hf) hv hb⟩

/-- The envelope after its type was set to `t`: as long as the buffer, of type `t`, and
with the payload of `tx`. -/
def Sealed (n : Nat) (t : MsgType) (tx tx' : Bytes) : Prop :=
  tx'.length = tx.length ∧ Envelope.msgType.get tx' = [t.toU8] ∧
    ∀ f : Field, f.stop ≤ n → (Envelope.field f).get tx' = (Envelope.field f).get tx

theorem Sealed.write {n : Nat} {t : MsgType} {g : Field} {v tx tx' : Bytes} (h : Sealed n t tx tx')
    (hv : v.length = g.len) (hg : g.stop ≤ Envelope.size n) (hty : g.Disjoint Envelope.msgType)
    (hpl : ∀ f : Field, f.stop ≤ n → (Envelope.field f).Disjoint g) (hlen : Envelope.size n ≤ tx.length) :
    Sealed n t tx (g.set v tx') := by
  obtain ⟨hl, hm, hp⟩ := h
  obtain ⟨hl', hm', hp'⟩ := seal_write hv hg hty hpl (hl ▸ hlen)
  exact ⟨hl'.trans hl, hm'.trans hm, fun f hf => (hp' f hf).trans (hp f hf)⟩

theorem Envelope.msgType_set (x : UInt8) (b : Bytes) : Envelope.msgType.set [x] b = x :: b.drop 1 := by
  simp [Envelope.msgType, Field.set, write]

/-- Sealing sets the type; on a buffer long enough for the envelope, it keeps the payload
and the length. It fails only for a peer that does not exist, having written the type. -/
theorem wp_sealAndCommitMsg {n : Nat} {t : MsgType} {peer : PeerPtr} {Q : Nat → Ctx → Prop}
    (hE : ∀ e tx', c.srv.peer peer.val = .error e → E e { c with tx := tx' })
    (h : ∀ tx', tx'.headD 0 = t.toU8 → (Envelope.size n ≤ c.tx.length → Sealed n t c.tx tx') →
      Q (Envelope.size n) { c with tx := tx' }) :
    wp (sealAndCommitMsg P peer t n) Q E c := by
  simp only [sealAndCommitMsg, Envelope.sealMsg, Envelope.sealCookie, wp_bind, wp_modifyTx, wp_PeerPtr_get,
    wp_getCtx]
  have hmac : 0 < (Envelope.mac n).off := by simp [Envelope.mac]
  have hcookie : 0 < (Envelope.cookie n).off := by simp [Envelope.cookie]
  -- the type, then the mac, then the cookie if the peer has a handshake
  have hty (hlen : Envelope.size n ≤ c.tx.length) : Sealed n t c.tx (Envelope.msgType.set [t.toU8] c.tx) := by
    have hb : Envelope.msgType.stop ≤ c.tx.length := by
      simp only [Envelope.msgType, Envelope.size, Field.stop] at hlen ⊢
      omega
    exact ⟨Field.length_set _ rfl hb, Field.get_set_self _ rfl hb,
      fun f _ => Field.get_set_of_disjoint (Envelope.field_disjoint_msgType f) rfl hb⟩
  have hsmac (hlen : Envelope.size n ≤ c.tx.length) (m : Bytes) (hm : m.length = MAC_SIZE) :
      Sealed n t c.tx ((Envelope.mac n).set m (Envelope.msgType.set [t.toU8] c.tx)) := by
    refine (hty hlen).write hm (Envelope.mac_stop_le n) ?_ (fun f hf => Envelope.field_disjoint_mac hf) hlen
    simp only [Envelope.mac, Envelope.msgType, Field.Disjoint, Field.stop]
    omega
  rcases hq : c.srv.peer peer.val with e | q <;> dsimp only
  · exact hE e _ hq
  -- the cookie is set when the peer has a handshake
  split
  · simp only [wp_bind, wp_getCtx, wp_modifyTx, wp_pure]
    apply h
    · rw [Envelope.msgType_set, Field.set_cons _ hmac, Field.set_cons _ hcookie]
      rfl
    · intro hlen
      refine (hsmac hlen _ (by simp [MAC_SIZE, KEY_LEN])).write (by simp [COOKIE_SIZE, Envelope.cookie, KEY_LEN])
        (by simp) ?_ (fun f hf => Envelope.field_disjoint_cookie hf) hlen
      simp only [Envelope.cookie, Envelope.msgType, Field.Disjoint, Field.stop]
      omega
  · simp only [wp_pure]
    apply h
    · rw [Envelope.msgType_set, Field.set_cons _ hmac]
      rfl
    · exact fun hlen => hsmac hlen _ (by simp [MAC_SIZE, KEY_LEN])

end Seal

end Rosenpass
