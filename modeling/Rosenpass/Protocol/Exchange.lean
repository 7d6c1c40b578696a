/-
The five messages of a handshake, one handler at a time (`protocol.rs`,
`initiate_handshake`, `handle_init_hello`, `handle_resp_hello`, `handle_init_conf`,
`handle_resp_conf`, and `handle_msg` around them).

Each lemma takes the message a handler receives as the transcript describes it
(`InitHelloOf`, …) and says, in the weakest-precondition form of `Lib.EState`, what the
handler answers and what it leaves of the server: the message it sends, again as the
transcript describes it, and the peer and index entries the next step reads. The
handlers' inner steps (`IniHsPtr::insert`, `SessionPtr::insert`, `load_biscuit`, sealing)
have lemmas of their own that say what they do from any state of the peer: an old
session or handshake of the peer is replaced, and the next step does not depend on it.
-/
import Rosenpass.Protocol.Transcript
import Rosenpass.Protocol.Cookie

namespace Rosenpass

open EStateM Buffer LittleEndian

variable {P : Primitives}

section Seal

variable {c : Ctx} {E : Fault → Ctx → Prop}

/-- Sealing for a peer that exists, in a buffer that holds the envelope: the envelope at
the front of the buffer is of the type, sealed for the peer, around the payload the buffer
had. -/
theorem wp_sealAndCommitMsg_sentTo {n : Nat} {t : MsgType} {peer : PeerPtr} {q : Peer} {Q : Nat → Ctx → Prop}
    (hq : c.srv.peer peer.val = .ok q) (hlen : Envelope.size n ≤ c.tx.length)
    (h : ∀ tx', Envelope.SentTo P n t q.spkt (tx'.take (Envelope.size n)) → tx'.length = c.tx.length →
      (∀ f : Field, f.stop ≤ n → (Envelope.field f).get tx' = (Envelope.field f).get c.tx) →
      Q (Envelope.size n) { c with tx := tx' }) :
    wp (sealAndCommitMsg P peer t n) Q E c := by
  simp only [sealAndCommitMsg, Envelope.sealMsg, Envelope.sealCookie, wp_bind, wp_modifyTx, wp_PeerPtr_get, hq,
    wp_getCtx]
  have hb : Envelope.msgType.stop ≤ c.tx.length :=
    le_trans (by simp only [Envelope.msgType, Envelope.size, Field.stop]; omega) hlen
  -- the type, then the mac over everything before it
  set tx₁ := Envelope.msgType.set [t.toU8] c.tx with htx₁
  have hl₁ : tx₁.length = c.tx.length := Field.length_set _ rfl hb
  set m := (P.hash (P.hash P.mac q.spkt) ((Envelope.macSpan n).get tx₁)).take 16 with hm
  have hml : m.length = (Envelope.mac n).len := by simp [hm, Envelope.mac, MAC_SIZE, KEY_LEN]
  have hmb : (Envelope.mac n).stop ≤ tx₁.length := hl₁ ▸ (Envelope.mac_stop_le n).trans hlen
  set tx₂ := (Envelope.mac n).set m tx₁ with htx₂
  have hl₂ : tx₂.length = c.tx.length := (Field.length_set _ hml hmb).trans hl₁
  have hmac₂ : Envelope.MacFor P n q.spkt tx₂ := by
    rw [Envelope.MacFor, Field.get_set_self _ hml hmb,
      Field.get_set_of_disjoint (Envelope.mac_disjoint_macSpan n).symm hml hmb]
  have hpl₂ : ∀ f : Field, f.stop ≤ n → (Envelope.field f).get tx₂ = (Envelope.field f).get c.tx := fun f hf =>
    (Field.get_set_of_disjoint (Envelope.field_disjoint_mac hf) hml hmb).trans
      (Field.get_set_of_disjoint (Envelope.field_disjoint_msgType f) rfl hb)
  have hmacpos : 0 < (Envelope.mac n).off := by simp [Envelope.mac]
  have hty₂ : tx₂.headD 0 = t.toU8 := by
    rw [htx₂, htx₁, Envelope.msgType_set, Field.set_cons _ hmacpos]
    rfl
  -- the cookie, when the peer has a handshake, comes after both
  split
  · simp only [wp_bind, wp_getCtx, wp_modifyTx, wp_pure]
    set v := (P.hash (P.hash P.cookie _) ((Envelope.cookieSpan n).get tx₂)).take 16
    have hvl : v.length = (Envelope.cookie n).len := by simp [v, Envelope.cookie, COOKIE_SIZE, KEY_LEN]
    have hvb : (Envelope.cookie n).stop ≤ tx₂.length := by rw [Envelope.cookie_stop, hl₂]; exact hlen
    have hcookiepos : 0 < (Envelope.cookie n).off := by simp [Envelope.cookie]
    have hspan : (Envelope.cookie n).Disjoint (Envelope.macSpan n) := by
      simp only [Envelope.cookie, Envelope.macSpan, Field.Disjoint, Field.stop]
      omega
    refine h _ (Envelope.sentTo_take (by rw [Field.length_set _ hvl hvb, hl₂]; exact hlen) ?_ ?_)
      ((Field.length_set _ hvl hvb).trans hl₂) fun f hf => ?_
    · rw [Field.headD_set _ hcookiepos (List.ne_nil_of_length_pos (by rw [hl₂]; exact lt_of_lt_of_le (by simp [Envelope.size]) hlen)), hty₂]
    · rw [Envelope.MacFor, Field.get_set_of_disjoint (Envelope.mac_disjoint_cookie n) hvl hvb,
        Field.get_set_of_disjoint hspan.symm hvl hvb]
      exact hmac₂
    · rw [Field.get_set_of_disjoint (Envelope.field_disjoint_cookie hf) hvl hvb]
      exact hpl₂ f hf
  · simp only [wp_pure]
    exact h _ (Envelope.sentTo_take (hl₂ ▸ hlen) hty₂ hmac₂) hl₂ hpl₂

end Seal

/-! ## The InitHello -/

section Initiate

variable {c : Ctx} {E : Fault → Ctx → Prop}

/-- `IniHsPtr::insert` under an id the index does not hold, into a peer whose handshake, if
it has one, has another id: the id points at the peer, which holds the new handshake; no
other id enters the index. -/
theorem IniHsPtr.wp_insert_fresh {p : IniHsPtr} {hs : InitiatorHandshake} {q : Peer} {Q : Unit → Ctx → Prop}
    (hq : c.srv.peer p.peer.val = .ok q) (hold : ∀ ho, q.handshake = some ho → ho.core.sidi ≠ hs.core.sidi)
    (hidx : c.srv.index (.Sid hs.core.sidi) = none)
    (h : ∀ srv' : CryptoServer, srv'.spkm = c.srv.spkm → srv'.sskm = c.srv.sskm →
      srv'.index (.Sid hs.core.sidi) = some p.peer.val →
      (∀ k, k ≠ .Sid hs.core.sidi → srv'.index k = c.srv.index k ∨ srv'.index k = none) →
      srv'.peer p.peer.val = .ok { q with handshake := some hs, initiationRequested := false } →
      Q () { c with srv := srv' }) :
    wp (p.insert hs) Q E c := by
  simp only [IniHsPtr.insert, IniHsPtr.take, wp_bind, wp_registerSession, hidx]
  rw [wp_takeSlot (q := q) (by simpa using hq)]
  -- whether the old handshake's id leaves the index or not, the new one stays
  have hstore : ∀ srv : CryptoServer, srv.spkm = c.srv.spkm → srv.sskm = c.srv.sskm →
      srv.index (.Sid hs.core.sidi) = some p.peer.val →
      (∀ k, k ≠ .Sid hs.core.sidi → srv.index k = c.srv.index k ∨ srv.index k = none) →
      srv.peer p.peer.val = .ok { q with handshake := none } →
      wp (p.peer.modify fun q => { q with initiationRequested := false, handshake := some hs }) Q E
        { c with srv := srv } := by
    intro srv hspkm hsskm hidx' hframe hpeer
    simp only [wp_PeerPtr_modify, hpeer]
    exact h _ hspkm hsskm hidx' hframe (by simp [hpeer, Except.map])
  have hpeer : ((c.srv.setSid hs.core.sidi (some p.peer.val)).updatePeer p.peer.val
      fun q => { q with handshake := none }).peer p.peer.val = .ok { q with handshake := none } := by
    simp [hq, Except.map]
  have hkept : ∀ k, k ≠ .Sid hs.core.sidi →
      Function.update c.srv.index (.Sid hs.core.sidi) (some p.peer.val) k = c.srv.index k :=
    fun k hk => Function.update_of_ne hk _ _
  cases hh : q.handshake with
  | none => exact hstore _ rfl rfl (by simp) (fun k hk => .inl (hkept k hk)) hpeer
  | some ho =>
    simp only
    split_ifs
    · exact hstore _ rfl rfl (by simp) (fun k hk => .inl (hkept k hk)) hpeer
    · -- the old id leaves the index
      refine hstore _ rfl rfl (by simp [Ne.symm (hold ho hh)]) (fun k hk => ?_) hpeer
      by_cases hko : k = .Sid ho.core.sidi
      · exact .inr (by simp [hko])
      · exact .inl ((Function.update_of_ne hko _ _).trans (hkept k hk))

/-- The handshake `handle_initiation` stores for the hello it sends: the state after the
InitHello, with the ephemeral key pair it drew. -/
def InitiatorHandshake.ofHello (P : Primitives) (env : Env) (spki : Bytes) (q : Peer) : InitiatorHandshake :=
  { InitiatorHandshake.zeroWithTimestamp P env with
    core := (Hello.ofInitiator P env spki q).s₈ P
    eski := (P.ephemeralKem.keygen env.coins.eski).1
    epki := (P.ephemeralKem.keygen env.coins.eski).2 }

/-- `handle_initiation`: the InitHello of the initiator's hello, and the handshake it
stores, in the state after the InitHello. -/
theorem wp_handleInitiation_hello {env : Env} {p : PeerPtr} {q : Peer} (hq : c.srv.peer p.val = .ok q)
    {Q : PeerPtr → Ctx → Prop}
    (h : wp (p.hs.insert (InitiatorHandshake.ofHello P env c.srv.spkm q))
      (fun _ c' => Q p c') E { c with tx := Field.setAll (initHelloFields P (Hello.ofInitiator P env c.srv.spkm q)) c.tx }) :
    wp (handleInitiation P env p) Q E c := by
  simp only [handleInitiation, wp_bind, wp_PeerPtr_get, hq, wp_getSrv, wp_writePayload]
  exact h

/-- `initiate_handshake` with the peer `q`, for any effect `I` on the index of storing the
new handshake: the InitHello of the initiator's hello, sealed for the responder, and the
handshake kept with that InitHello for retransmission, its first retransmission scheduled.
The index is as the insert left it. -/
theorem wp_initiateHandshake_of_insert {env : Env} {p : PeerPtr} {q : Peer} (hq : c.srv.peer p.val = .ok q)
    (hlen : Envelope.size (InitHello.size P) ≤ c.tx.length) {I : (IndexKey → Option Nat) → Prop}
    (hins : ∀ tx, wp (p.hs.insert (InitiatorHandshake.ofHello P env c.srv.spkm q))
      (fun _ c₁ => c₁.tx = tx ∧ c₁.srv.spkm = c.srv.spkm ∧ c₁.srv.sskm = c.srv.sskm ∧ I c₁.srv.index ∧
        c₁.srv.peer p.val = .ok { q with
          handshake := some (InitiatorHandshake.ofHello P env c.srv.spkm q)
          initiationRequested := false }) E { c with tx := tx })
    {Q : Nat → Ctx → Prop}
    (h : ∀ c', InitHelloOf P (Hello.ofInitiator P env c.srv.spkm q) (c'.tx.take (Envelope.size (InitHello.size P))) →
      c'.srv.spkm = c.srv.spkm → c'.srv.sskm = c.srv.sskm → I c'.srv.index →
      c'.srv.peer p.val = .ok { q with
        handshake := some { InitiatorHandshake.ofHello P env c.srv.spkm q with
          txBuf := cpyMin (c'.tx.take (Envelope.size (InitHello.size P))) (zeros MAX_MESSAGE_LEN)
          txLen := Envelope.size (InitHello.size P)
          txRetryAt := env.now + retransmitDelay 0 env.coins.jitter
          txCount := 1 }
        initiationRequested := false } →
      Q (Envelope.size (InitHello.size P)) c') :
    wp (initiateHandshake P env p) Q E c := by
  simp only [initiateHandshake, wp_bind, wp_truncatingCastInto, if_pos hlen]
  apply wp_handleInitiation_hello hq
  refine wp_mono (hins _) (fun _ c₁ hc₁ => ?_) fun _ _ h => h
  obtain ⟨htx₁, hspkm₁, hsskm₁, hI₁, hpeer₁⟩ := hc₁
  have hsized := Hello.sized_ofInitiator (P := P) env c.srv.spkm q
  have hlen₁ : Envelope.size (InitHello.size P) ≤ c₁.tx.length := by
    rw [htx₁, Field.length_setAll ((initHello_layout hsized).fits hlen)]
    exact hlen
  apply wp_sealAndCommitMsg_sentTo hpeer₁ hlen₁
  intro tx' hsent hl' hpl
  rw [htx₁] at hpl
  -- the InitHello is kept, then its retransmission scheduled
  simp only [wp_getCtx, IniHsPtr.storeMsgForRetransmission, IniHsPtr.registerRetransmission, wp_bind]
  apply IniHsPtr.wp_modifyHandshake hpeer₁ rfl
  apply IniHsPtr.wp_modifyHandshake (by simp [hpeer₁, Except.map]; rfl) rfl
  simp only [wp_pure]
  have htake : min (Envelope.size (InitHello.size P)) tx'.length = Envelope.size (InitHello.size P) := by
    rw [hl']
    exact min_eq_left hlen₁
  refine h _ ⟨hsent, (initHello_layout hsized).carries_take hlen hpl⟩ hspkm₁ hsskm₁ hI₁ ?_
  simp [hpeer₁, Except.map, htake]
  rfl

/-- `initiate_handshake` with the peer `q`, under a session id the index does not hold and
the peer's old handshake, if any, does not have: the InitHello of the initiator's hello,
sealed for the responder, and the handshake stored in the state after it, its id pointing
at the peer. -/
theorem wp_initiateHandshake_hello {env : Env} {p : PeerPtr} {q : Peer} (hq : c.srv.peer p.val = .ok q)
    (hold : ∀ ho, q.handshake = some ho → ho.core.sidi ≠ draw SESSION_ID_LEN env.coins.sid)
    (hidx : c.srv.index (.Sid (draw SESSION_ID_LEN env.coins.sid)) = none)
    (hlen : Envelope.size (InitHello.size P) ≤ c.tx.length) {Q : Nat → Ctx → Prop}
    (h : ∀ c' hs, InitHelloOf P (Hello.ofInitiator P env c.srv.spkm q) (c'.tx.take (Envelope.size (InitHello.size P))) →
      c'.srv.spkm = c.srv.spkm → c'.srv.sskm = c.srv.sskm →
      c'.srv.index (.Sid (draw SESSION_ID_LEN env.coins.sid)) = some p.val →
      c'.srv.peer p.val = .ok { q with handshake := some hs, initiationRequested := false } →
      hs.core = (Hello.ofInitiator P env c.srv.spkm q).s₈ P → hs.next = .RespHello →
      hs.eski = (P.ephemeralKem.keygen env.coins.eski).1 → hs.epki = (P.ephemeralKem.keygen env.coins.eski).2 →
      Q (Envelope.size (InitHello.size P)) c') :
    wp (initiateHandshake P env p) Q (fun _ _ => False) c :=
  wp_initiateHandshake_of_insert hq hlen (I := fun idx => idx (.Sid (draw SESSION_ID_LEN env.coins.sid)) = some p.val)
    (fun _ => IniHsPtr.wp_insert_fresh (by simpa using hq) hold hidx fun _ hspkm hsskm hidx' _ hpeer =>
      ⟨rfl, hspkm, hsskm, hidx', hpeer⟩)
    fun c' hmsg hspkm hsskm hidx' hpeer => h c' _ hmsg hspkm hsskm hidx' hpeer rfl rfl rfl rfl

end Initiate

/-! ## The RespHello -/

section Answer

variable {c : Ctx} {E : Fault → Ctx → Prop} {env : Env} {h : Hello} {rx : Bytes}

/-- `handle_init_hello` of the InitHello of the hello `h`, at the responder with the
static key it was sent to and a peer with the initiator's key and the same psk: the
responder reaches the state of the response `Resp.ofResponder`, writes its fields, and
stores the biscuit of that state. -/
theorem wp_handleInitHello_resp (ha : P.aead.Correct) (hrx : InitHelloOf P h rx) (hkey : c.srv.spkm = h.spkr)
    (hdec : P.staticKem.decaps c.srv.sskm h.sctr = h.shk) {i : Nat}
    (hfind : c.srv.index (.Peer (P.hash P.peerid h.spki)) = some i) {q : Peer} (hq : c.srv.peer i = .ok q)
    (hspkt : q.spkt = h.spki) (hpsk : q.psk = h.psk) {Q : PeerPtr → Ctx → Prop}
    (hQ : wp (((Resp.ofResponder P env h).s₅ P h).storeBiscuit P env ⟨i⟩)
      (fun x c' => Q ⟨i⟩ { c' with tx := Field.setAll [(Envelope.field (RespHello.biscuit P), x.1),
        (Envelope.field (RespHello.auth P), (x.2.encryptAndMix P []).1)] c'.tx }) E
      { c with tx := Field.setAll [(Envelope.field RespHello.sidi, h.sidi),
        (Envelope.field RespHello.sidr, (Resp.ofResponder P env h).sidr),
        (Envelope.field (RespHello.ecti P), (Resp.ofResponder P env h).ecti),
        (Envelope.field (RespHello.scti P), (Resp.ofResponder P env h).scti)] c.tx }) :
    wp (handleInitHello P env rx) Q E c := by
  obtain ⟨-, hsidi, hepki, hsctr, hpidic, hauth, -⟩ := hrx
  simp only [handleInitHello, wp_bind, wp_getSrv, wp_liftE, hsidi, hepki, hsctr, hpidic, hauth, hkey,
    h.decapsAndMix_s₄ hdec, h.decryptAndMix_pidic ha, CryptoServer.findPeer, hfind, Option.map_some, wp_pure,
    wp_PeerPtr_get, hq, hspkt, hpsk, h.s₇_eq, h.decryptAndMix_auth ha, wp_writePayload]
  exact hQ

/-- `handle_msg` of the InitHello of the hello `h`, at the responder it was sent to, with a
peer that has the initiator's key and the same psk: the RespHello of the response
`Resp.ofResponder`, around a biscuit of the state that response reaches, made by one
`BiscuitStep` of the server. -/
theorem wp_handleMsg_initHello_resp (ha : P.aead.Correct) (hrx : InitHelloOf P h rx) (hkey : c.srv.spkm = h.spkr)
    (hdec : P.staticKem.decaps c.srv.sskm h.sctr = h.shk) {i : Nat}
    (hfind : c.srv.index (.Peer (P.hash P.peerid h.spki)) = some i) {q : Peer} (hq : c.srv.peer i = .ok q)
    (hspkt : q.spkt = h.spki) (hpsk : q.psk = h.psk) (hsidi : h.sidi.length = SESSION_ID_LEN)
    (hno : c.srv.biscuitCtr.length = BISCUIT_ID_LEN) (hlen : Envelope.size (RespHello.size P) ≤ c.tx.length)
    {Q : HandleMsgResult → Ctx → Prop}
    (hQ : ∀ c' bis, BiscuitStep env c.srv c'.srv →
      BiscuitOf P c.srv c'.srv ((Resp.ofResponder P env h).s₅ P h) (q.pidt P) bis →
      RespHelloOf P h (Resp.ofResponder P env h) bis (c'.tx.take (Envelope.size (RespHello.size P))) →
      Q ⟨none, some (Envelope.size (RespHello.size P))⟩ c') :
    wp (handleMsg P env rx) Q (fun _ _ => False) c := by
  have hrx' := hrx
  obtain ⟨⟨hrxlen, hty, hmac⟩, -⟩ := hrx'
  have hne : rx ≠ [] := List.ne_nil_of_length_pos (by rw [hrxlen]; simp [Envelope.size])
  have hseal : Envelope.checkSeal P c.srv (InitHello.size P) rx = true := Envelope.checkSeal_of_macFor (hkey ▸ hmac)
  simp only [handleMsg, wp_bind, wp_ensure, wp_getSrv, hty, MsgType.tryFrom_toU8, wp_refNew, wp_truncatingCastInto,
    if_pos hne, hrxlen, hseal, if_true, hlen]
  apply wp_handleInitHello_resp ha hrx hkey hdec hfind hq hspkt hpsk
  refine wp_storeBiscuit (q := q) ?_ fun bis c' htx' hstep hof => ?_
  · exact hq
  have hr := Resp.sized_ofResponder (P := P) env h
  have hbis : bis.length = BISCUIT_CT_LEN := hof.length (by simp [Peer.pidt]) hno (by simp [Resp.s₅])
  have hl := respHello_layout hsidi hr hbis
  have hfields : Field.setAll (respHelloFields P h (Resp.ofResponder P env h) bis) c.tx =
      Field.setAll [(Envelope.field (RespHello.biscuit P), bis),
        (Envelope.field (RespHello.auth P), (((Resp.ofResponder P env h).s₅ P h |>.mix P bis).encryptAndMix P []).1)]
        c'.tx := by
    rw [htx']
    rfl
  have hlen' : Envelope.size (RespHello.size P) ≤ (Field.setAll [(Envelope.field (RespHello.biscuit P), bis),
      (Envelope.field (RespHello.auth P), (((Resp.ofResponder P env h).s₅ P h |>.mix P bis).encryptAndMix P []).1)]
      c'.tx).length := by
    rw [← hfields, Field.length_setAll (hl.fits hlen)]
    exact hlen
  apply wp_sealAndCommitMsg_sentTo (by rw [hstep.peer]; exact hq) hlen'
  intro tx' hsent _ hpl
  simp only [wp_pure]
  rw [hspkt] at hsent
  exact hQ _ bis hstep hof ⟨hsent, hl.carries_take hlen fun f hf => (hpl f hf).trans (by rw [hfields])⟩

end Answer

/-! ## The InitConf -/

section Load

variable {pid : Bytes} {srv srv' : CryptoServer} {hs : HandshakeState} {ct : Bytes}

/-- `load_biscuit` of a biscuit `store_biscuit` made, on the server it left, with the session
ids it was made for: the peer it names, the number it was made with, and the state it
keeps with the biscuit mixed in; when the peer has not used a newer number. -/
theorem BiscuitOf.loadBiscuit (h : BiscuitOf P srv srv' hs pid ct) (hx : P.xaead.Correct)
    (hpid : pid.length = KEY_LEN) (hno : srv.biscuitCtr.length = BISCUIT_ID_LEN) (hck : hs.ck.length = KEY_LEN)
    (hspkm : srv'.spkm = srv.spkm) {i : Nat} (hfind : srv'.index (.Peer pid) = some i) {q : Peer}
    (hq : srv'.peer i = .ok q) (hused : q.biscuitUsed.length = BISCUIT_ID_LEN)
    (hle : value q.biscuitUsed ≤ value srv.biscuitCtr) :
    HandshakeState.loadBiscuit P srv' ct hs.sidi hs.sidr = .ok (⟨i⟩, srv.biscuitCtr, hs.mix P ct) := by
  obtain ⟨n, hn, hct⟩ := h
  have hopen : P.xaeadDecrypt (srv'.biscuitKeys (HandshakeState.biscuitKeyOf ct).val).value
      (HandshakeState.biscuitAd P srv'.spkm hs.sidi hs.sidr) ct =
        .ok (Biscuit.ck.set hs.ck (Biscuit.biscuitNo.set srv.biscuitCtr (Biscuit.pidi.set pid (zeros BISCUIT_PT_LEN)))) := by
    rw [hspkm]
    conv => lhs; arg 4; rw [hct]
    exact P.xaeadDecrypt_xaeadEncrypt hx hn _ _ _
  have hq' : srv'.peer i = pure q := hq
  have hcmp := ConstantTime.compare_eq_sign (hno.trans hused.symm)
  have hnonneg : 0 ≤ Int32.ofInt ((value srv.biscuitCtr : Int) - value q.biscuitUsed).sign :=
    (ConstantTime.ofInt_sign_nonneg_iff _).2 (by omega)
  simp only [HandshakeState.loadBiscuit, hopen, HandshakeState.biscuitNo_biscuitPt hpid hno hck,
    HandshakeState.pidi_biscuitPt hpid hno hck, HandshakeState.ck_biscuitPt hpid hno hck, CryptoServer.findPeer,
    pure_bind, hfind, Option.map_some, hq', hcmp, hnonneg, if_true]
  rfl

end Load

section Insert

variable {c : Ctx} {E : Fault → Ctx → Prop}

/-- `SessionPtr::insert` under an id that points at the peer or nowhere: whatever session the
peer had, the id then points at the peer, which holds the new session. -/
theorem SessionPtr.wp_insert {p : SessionPtr} {ses : Session} {q : Peer} {Q : Unit → Ctx → Prop}
    (hq : c.srv.peer p.peer.val = .ok q)
    (hidx : c.srv.index (.Sid ses.sidm) = some p.peer.val ∨ c.srv.index (.Sid ses.sidm) = none)
    (h : ∀ srv' : CryptoServer, srv'.spkm = c.srv.spkm → srv'.sskm = c.srv.sskm →
      srv'.index (.Sid ses.sidm) = some p.peer.val →
      srv'.peer p.peer.val = .ok { q with session := some ses } → Q () { c with srv := srv' }) :
    wp (p.insert ses) Q E c := by
  simp only [SessionPtr.insert, SessionPtr.take, wp_bind]
  rw [wp_takeSlot hq]
  -- once the old session is out, the id points at the peer or nowhere, and is registered
  have hreg : ∀ srv : CryptoServer, srv.spkm = c.srv.spkm → srv.sskm = c.srv.sskm →
      (srv.index (.Sid ses.sidm) = some p.peer.val ∨ srv.index (.Sid ses.sidm) = none) →
      srv.peer p.peer.val = .ok { q with session := none } →
      wp (registerSession ses.sidm p.peer) (fun _ s' => wp (p.peer.modify fun q => { q with session := some ses }) Q E s')
        E { c with srv := srv } := by
    intro srv hspkm hsskm hidx' hpeer
    rcases hidx' with hi | hi
    · simp only [wp_registerSession, hi, if_true, wp_PeerPtr_modify, hpeer]
      exact h _ hspkm hsskm hi (by simp [hpeer, Except.map])
    · simp only [wp_registerSession, hi, wp_PeerPtr_modify, CryptoServer.peer_setSid, hpeer]
      exact h _ hspkm hsskm (by simp) (by simp [hpeer, Except.map])
  have hpeer : (c.srv.updatePeer p.peer.val fun q => { q with session := none }).peer p.peer.val =
      .ok { q with session := none } := by
    simp [hq, Except.map]
  cases hs : q.session with
  | none => exact hreg _ rfl rfl hidx hpeer
  | some so =>
    simp only
    split_ifs
    · exact hreg _ rfl rfl hidx hpeer
    · -- the old session's id leaves the index: the new id is that one, or keeps its entry
      refine hreg _ rfl rfl ?_ hpeer
      by_cases he : so.sidm = ses.sidm
      · exact .inr (by simp [he])
      · simpa [Function.update_apply, Ne.symm he] using hidx

end Insert

section Confirm

variable {c : Ctx} {E : Fault → Ctx → Prop} {env : Env} {h : Hello} {r : Resp} {bis rx : Bytes}

/-- `handle_resp_hello` of the RespHello of the response `r`, at the initiator whose
handshake with the peer `j` is in the state the hello `h` leaves: the initiator goes live
with the state the exchange ends in, keeps the handshake without its secrets for
retransmitting the InitConf, and writes the InitConf's fields. -/
theorem wp_handleRespHello_conf (ha : P.aead.Correct) (hrx : RespHelloOf P h r bis rx) {j : Nat}
    (hidx : c.srv.index (.Sid h.sidi) = some j) {q : Peer} (hq : c.srv.peer j = .ok q) {hs : InitiatorHandshake}
    (hhs : q.handshake = some hs) (hcore : hs.core = h.s₈ P) (hnext : hs.next = .RespHello)
    (hepki : hs.epki = h.epki) (hdecE : P.ephemeralKem.decaps hs.eski r.ecti = r.shke)
    (hkey : c.srv.spkm = h.spki) (hdecS : P.staticKem.decaps c.srv.sskm r.scti = r.shks)
    {Q : PeerPtr → Ctx → Prop}
    (hQ : ∀ srv' : CryptoServer, srv'.spkm = c.srv.spkm → srv'.index (.Sid h.sidi) = some j →
      srv'.peer j = .ok { q with
        session := some ((r.final P h bis).enterLive P env.now .Initiator)
        handshake := some { hs with core := hs.core.erase, next := .RespConf } } →
      Q ⟨j⟩ { srv := srv', tx := Field.setAll (initConfFields P h r bis) c.tx }) :
    wp (handleRespHello P env rx) Q E c := by
  obtain ⟨-, hsidi, hsidr, hecti, hscti, hbis, hauth, -⟩ := hrx
  have hlook := CryptoServer.lookupHandshake_of_index
    (show c.srv.index _ = some (PeerPtr.mk j).val from hidx) hq
  simp only [hhs, hcore, Option.any_some, Hello.sidi_s₈, beq_self_eq_true, if_true] at hlook
  simp only [handleRespHello, wp_bind, wp_getSrv, wp_liftE, hsidi, hsidr, hecti, hscti, hbis, hauth, hlook,
    PeerPtr.hs_peer, wp_pure, wp_PeerPtr_get, hq, hhs, wp_ensure, hnext, if_true, hcore, hepki, hkey,
    r.decapsAndMix_s₅ h hdecE hdecS, r.decryptAndMix_auth h bis ha, wp_writePayload, r.s₉_eq h bis]
  -- the session's id is the handshake's, which points at the peer already
  apply SessionPtr.wp_insert (by simpa using hq) (.inl (by simpa [HandshakeState.enterLive] using hidx))
  intro srv₁ hspkm₁ _ hidx₁ hpeer₁
  simp only [PeerPtr.session_peer] at hidx₁ hpeer₁
  simp only [wp_bind, hpeer₁, hhs, wp_PeerPtr_modify, wp_pure]
  exact hQ _ hspkm₁ (by simpa [HandshakeState.enterLive] using hidx₁) (by simp [hpeer₁, Except.map]; rfl)

/-- `handle_msg` of the RespHello of the response `r`, at the initiator of the hello `h`:
the InitConf of the exchange, sealed for the responder, and the initiator live on the state
the exchange ends in, its handshake kept for retransmitting the InitConf. -/
theorem wp_handleMsg_respHello_conf (ha : P.aead.Correct) (hrx : RespHelloOf P h r bis rx) {j : Nat}
    (hidx : c.srv.index (.Sid h.sidi) = some j) {q : Peer} (hq : c.srv.peer j = .ok q) {hs : InitiatorHandshake}
    (hhs : q.handshake = some hs) (hcore : hs.core = h.s₈ P) (hnext : hs.next = .RespHello)
    (hepki : hs.epki = h.epki) (hdecE : P.ephemeralKem.decaps hs.eski r.ecti = r.shke)
    (hkey : c.srv.spkm = h.spki) (hdecS : P.staticKem.decaps c.srv.sskm r.scti = r.shks)
    (hspkt : q.spkt = h.spkr) (hlen : Envelope.size InitConf.size ≤ c.tx.length) {Q : HandleMsgResult → Ctx → Prop}
    (hQ : ∀ c' hs', InitConfOf P h r bis (c'.tx.take (Envelope.size InitConf.size)) →
      c'.srv.spkm = c.srv.spkm → c'.srv.index (.Sid h.sidi) = some j →
      c'.srv.peer j = .ok { q with
        session := some ((r.final P h bis).enterLive P env.now .Initiator)
        handshake := some hs' } →
      hs'.core.sidi = h.sidi → hs'.next = .RespConf →
      Q ⟨some ⟨j⟩, some (Envelope.size InitConf.size)⟩ c') :
    wp (handleMsg P env rx) Q (fun _ _ => False) c := by
  have hrx' := hrx
  obtain ⟨hsent, hsidi, hsidr, -, -, hbis, -⟩ := hrx'
  have hne : rx ≠ [] := List.ne_nil_of_length_pos (by rw [hsent.1]; simp [Envelope.size])
  have hseal : Envelope.checkSeal P c.srv (RespHello.size P) rx = true :=
    Envelope.checkSeal_of_macFor (hkey ▸ hsent.2.2)
  -- the lengths of what the InitConf repeats, as the RespHello carries them
  have hh : h.sidi.length = SESSION_ID_LEN := by
    rw [← hsidi]
    exact hsent.length_get (by simp only [RespHello.sidi, RespHello.size, Field.stop]; omega)
  have hr : r.sidr.length = SESSION_ID_LEN := by
    rw [← hsidr]
    exact hsent.length_get (by simp only [RespHello.sidr, RespHello.size, Field.stop]; omega)
  have hb : bis.length = BISCUIT_CT_LEN := by
    rw [← hbis]
    exact hsent.length_get (by simp only [RespHello.biscuit, RespHello.size, Field.stop]; omega)
  have hl := initConf_layout (P := P) hh hr hb
  simp only [handleMsg, wp_bind, wp_ensure, wp_getSrv, hsent.2.1, MsgType.tryFrom_toU8, wp_refNew,
    wp_truncatingCastInto, if_pos hne, hsent.1, hseal, if_true, hlen]
  apply wp_handleRespHello_conf ha hrx hidx hq hhs hcore hnext hepki hdecE hkey hdecS
  intro srv₁ hspkm₁ hidx₁ hpeer₁
  have hlen' : Envelope.size InitConf.size ≤ (Field.setAll (initConfFields P h r bis) c.tx).length := by
    rw [Field.length_setAll (hl.fits hlen)]
    exact hlen
  apply wp_sealAndCommitMsg_sentTo hpeer₁ hlen'
  intro tx' hsent' _ hpl
  simp only [wp_getCtx, IniHsPtr.storeMsgForRetransmission, IniHsPtr.registerRetransmission, wp_bind]
  apply IniHsPtr.wp_modifyHandshake hpeer₁ rfl
  apply IniHsPtr.wp_modifyHandshake (by simp [hpeer₁, Except.map]; rfl) rfl
  simp only [wp_pure]
  rw [hspkt] at hsent'
  exact hQ _ _ ⟨hsent', hl.carries_take hlen hpl⟩ hspkm₁ hidx₁ (by simp [hpeer₁, Except.map]; rfl) (by rw [hcore]; rfl)
    rfl

end Confirm

/-! ## The acknowledgement -/

section Ack

variable {c : Ctx} {E : Fault → Ctx → Prop} {env : Env} {h : Hello} {r : Resp} {bis rx : Bytes}

/-- `handle_init_conf` of the InitConf of the exchange, at the responder whose biscuit it
carries, to a peer that has used no newer biscuit, under a session id the index does not
hold: the peer takes the biscuit's number, goes live with the state the exchange ends in in
place of any session it had, drops any handshake of its own, and acknowledges on the new
session with its first nonce. -/
theorem wp_handleInitConf_live (ha : P.aead.Correct) (hx : P.xaead.Correct) (hrx : InitConfOf P h r bis rx)
    {srv₀ : CryptoServer} {pid : Bytes} (hof : BiscuitOf P srv₀ c.srv (r.s₅ P h) pid bis)
    (hspkm : c.srv.spkm = srv₀.spkm) (hpid : pid.length = KEY_LEN) (hno : srv₀.biscuitCtr.length = BISCUIT_ID_LEN)
    {i : Nat} (hfind : c.srv.index (.Peer pid) = some i) {q : Peer} (hq : c.srv.peer i = .ok q)
    (hused : q.biscuitUsed.length = BISCUIT_ID_LEN) (hlt : value q.biscuitUsed < value srv₀.biscuitCtr)
    (hsid : c.srv.index (.Sid r.sidr) = none) {Q : PeerPtr → Ctx → Prop}
    (hQ : ∀ srv' : CryptoServer, srv'.peer i = .ok { q with
          biscuitUsed := srv₀.biscuitCtr
          session := some { (r.final P h bis).enterLive P env.now .Responder with txnm := 1 }
          handshake := none } →
      Q ⟨i⟩ { srv := srv', tx := Field.setAll (emptyDataFields P ((r.final P h bis).enterLive P env.now .Responder)) c.tx }) :
    wp (handleInitConf P env rx) Q E c := by
  obtain ⟨-, hsidi, hsidr, hbis, hauth, -⟩ := hrx
  have hload : HandshakeState.loadBiscuit P c.srv bis h.sidi r.sidr = .ok (⟨i⟩, srv₀.biscuitCtr, (r.s₅ P h).mix P bis) :=
    hof.loadBiscuit hx hpid hno (by simp [Resp.s₅]) hspkm hfind hq hused hlt.le
  have hcmp := ConstantTime.compare_eq_sign (hno.trans hused.symm)
  have hpos : 0 < Int32.ofInt ((value srv₀.biscuitCtr : Int) - value q.biscuitUsed).sign :=
    (ConstantTime.ofInt_sign_pos_iff _).2 (by omega)
  simp only [handleInitConf, wp_bind, wp_getSrv, wp_liftE, hsidi, hsidr, hbis, hauth, hload, r.s₉_eq h bis,
    r.decryptAndMix_confAuth h bis ha, wp_PeerPtr_get, hq, hcmp, hpos, if_true, wp_PeerPtr_modify]
  -- the session's id is the fresh one the responder drew
  apply SessionPtr.wp_insert (q := { q with biscuitUsed := srv₀.biscuitCtr }) (by simp [hq, Except.map])
    (.inr (by simpa [HandshakeState.enterLive] using hsid))
  intro srv₁ _ _ _ hpeer₁
  simp only [PeerPtr.session_peer] at hpeer₁
  -- a handshake the responder started with the peer is dropped
  simp only [IniHsPtr.take, PeerPtr.hs_peer]
  apply wp_takeSlot_of_peer hpeer₁
  intro srv₂ _ hpeer₂
  have hnm : ((r.final P h bis).enterLive P env.now .Responder).txnm = 0 := rfl
  simp only [wp_bind, hpeer₂, wp_pure, wp_writePayload, wp_PeerPtr_modify, hnm]
  exact hQ _ (by simp [hpeer₂, Except.map])

/-- `handle_msg` of the InitConf of the exchange, at the responder whose biscuit it
carries: the EmptyData that acknowledges on the new session with its first nonce, sealed
for the initiator, and the peer live on that session with the next nonce. -/
theorem wp_handleMsg_initConf_ack (ha : P.aead.Correct) (hx : P.xaead.Correct) (hrx : InitConfOf P h r bis rx)
    (hkey : c.srv.spkm = h.spkr) {srv₀ : CryptoServer} {pid : Bytes}
    (hof : BiscuitOf P srv₀ c.srv (r.s₅ P h) pid bis) (hspkm : c.srv.spkm = srv₀.spkm) (hpid : pid.length = KEY_LEN)
    (hno : srv₀.biscuitCtr.length = BISCUIT_ID_LEN) {i : Nat} (hfind : c.srv.index (.Peer pid) = some i) {q : Peer}
    (hq : c.srv.peer i = .ok q) (hused : q.biscuitUsed.length = BISCUIT_ID_LEN)
    (hlt : value q.biscuitUsed < value srv₀.biscuitCtr) (hsid : c.srv.index (.Sid r.sidr) = none)
    (hspkt : q.spkt = h.spki) (hlen : Envelope.size EmptyData.size ≤ c.tx.length) {Q : HandleMsgResult → Ctx → Prop}
    (hQ : ∀ c', EmptyDataOf P h.spki ((r.final P h bis).enterLive P env.now .Responder)
        (c'.tx.take (Envelope.size EmptyData.size)) →
      c'.srv.peer i = .ok { q with
        biscuitUsed := srv₀.biscuitCtr
        session := some { (r.final P h bis).enterLive P env.now .Responder with txnm := 1 }
        handshake := none } →
      Q ⟨some ⟨i⟩, some (Envelope.size EmptyData.size)⟩ c') :
    wp (handleMsg P env rx) Q (fun _ _ => False) c := by
  have hrx' := hrx
  obtain ⟨hsent, hsidi, -⟩ := hrx'
  have hne : rx ≠ [] := List.ne_nil_of_length_pos (by rw [hsent.1]; simp [Envelope.size])
  have hseal : Envelope.checkSeal P c.srv InitConf.size rx = true := Envelope.checkSeal_of_macFor (hkey ▸ hsent.2.2)
  have hh : h.sidi.length = SESSION_ID_LEN := by
    rw [← hsidi]
    exact hsent.length_get (by simp only [InitConf.sidi, InitConf.size, Field.stop]; omega)
  have hl : Envelope.Layout EmptyData.size (emptyDataFields P ((r.final P h bis).enterLive P env.now .Responder)) :=
    emptyData_layout hh
  simp only [handleMsg, wp_bind, wp_ensure, wp_getSrv, hsent.2.1, MsgType.tryFrom_toU8, wp_refNew,
    wp_truncatingCastInto, if_pos hne, hsent.1, hseal, if_true, hlen]
  apply wp_handleInitConf_live ha hx hrx hof hspkm hpid hno hfind hq hused hlt hsid
  intro srv₁ hpeer₁
  have hlen' : Envelope.size EmptyData.size ≤
      (Field.setAll (emptyDataFields P ((r.final P h bis).enterLive P env.now .Responder)) c.tx).length := by
    rw [Field.length_setAll (hl.fits hlen)]
    exact hlen
  apply wp_sealAndCommitMsg_sentTo hpeer₁ hlen'
  intro tx' hsent' _ hpl
  simp only [wp_pure]
  rw [hspkt] at hsent'
  exact hQ _ ⟨hsent', hl.carries_take hlen hpl⟩ hpeer₁

end Ack

/-! ## The end of the handshake -/

section Done

variable {c : Ctx} {E : Fault → Ctx → Prop} {rx : Bytes}

/-- `handle_resp_conf` of an EmptyData on the session `ses` of the responder, at the
initiator whose handshake and session with the peer `j` are that session's other end,
and whose nonce it does not go back on: the initiator takes the nonce and drops the
handshake, which ends the retransmission of the InitConf. -/
theorem wp_handleRespConf_done (ha : P.aead.Correct) {spk : Bytes} {ses : Session} (hrx : EmptyDataOf P spk ses rx)
    {j : Nat} (hidx : c.srv.index (.Sid ses.sidt) = some j) {q : Peer} (hq : c.srv.peer j = .ok q)
    {hs : InitiatorHandshake} (hhs : q.handshake = some hs) (hsidi : hs.core.sidi = ses.sidt)
    (hnext : hs.next = .RespConf) {s : Session} (hses : q.session = some s) (hsidm : s.sidm = ses.sidt)
    (hkey : s.txkt = ses.txkm) (hnonce : s.txnt ≤ ses.txnm) {Q : PeerPtr → Ctx → Prop}
    (hQ : Q ⟨j⟩ { c with srv := c.srv.updatePeer j fun q => { q with
      session := some { s with txnt := ses.txnm }
      handshake := none } }) :
    wp (handleRespConf P rx) Q E c := by
  obtain ⟨-, hsid, hctr, hauth, -⟩ := hrx
  have hlook := CryptoServer.lookupHandshake_of_index
    (show c.srv.index _ = some (PeerPtr.mk j).val from hidx) hq
  simp only [hhs, hsidi, Option.any_some, beq_self_eq_true, if_true] at hlook
  -- the tag is the one of the responder's sending key, which is the initiator's receiving key
  have hopen : P.aeadDecrypt s.txkt (bytes 8 ses.txnm.toNat ++ zeros 4) []
      (P.aeadEncrypt ses.txkm (bytes 8 ses.txnm.toNat ++ zeros 4) [] []) = .ok [] := by
    rw [hkey]
    exact P.aeadDecrypt_aeadEncrypt ha _ _ _ _
  -- the session keeps the handshake's id in the index
  have huse : (s.sidm == hs.core.sidi) = true := by rw [hsidm, hsidi, beq_self_eq_true]
  simp only [handleRespConf, wp_bind, wp_getSrv, wp_liftE, hsid, hlook, PeerPtr.hs_peer, wp_pure, wp_PeerPtr_get,
    hq, hhs, Option.map_some, hnext, wp_ensure, if_true, hses, hctr, ofNat_value_bytes, hnonce, wp_PeerPtr_modify,
    hauth, hopen]
  simp only [IniHsPtr.take, PeerPtr.hs_peer]
  rw [wp_takeSlot (by simp [hq, Except.map]; rfl)]
  simp only [hhs, Peer.usesSid, Option.any_some, huse, Bool.true_or, if_true, CryptoServer.updatePeer_updatePeer]
  exact hQ

/-- `handle_msg` of that EmptyData, sealed for the initiator: it answers nothing. -/
theorem wp_handleMsg_emptyData_done (ha : P.aead.Correct) {env : Env} {ses : Session}
    (hrx : EmptyDataOf P c.srv.spkm ses rx) {j : Nat} (hidx : c.srv.index (.Sid ses.sidt) = some j) {q : Peer}
    (hq : c.srv.peer j = .ok q) {hs : InitiatorHandshake} (hhs : q.handshake = some hs)
    (hsidi : hs.core.sidi = ses.sidt) (hnext : hs.next = .RespConf) {s : Session} (hses : q.session = some s)
    (hsidm : s.sidm = ses.sidt) (hkey : s.txkt = ses.txkm) (hnonce : s.txnt ≤ ses.txnm)
    {Q : HandleMsgResult → Ctx → Prop}
    (hQ : Q ⟨none, none⟩ { c with srv := c.srv.updatePeer j fun q => { q with
      session := some { s with txnt := ses.txnm }
      handshake := none } }) :
    wp (handleMsg P env rx) Q (fun _ _ => False) c := by
  have hrx' := hrx
  obtain ⟨hsent, -⟩ := hrx'
  have hne : rx ≠ [] := List.ne_nil_of_length_pos (by rw [hsent.1]; simp [Envelope.size])
  have hseal : Envelope.checkSeal P c.srv EmptyData.size rx = true := Envelope.checkSeal_of_macFor hsent.2.2
  simp only [handleMsg, wp_bind, wp_ensure, wp_getSrv, hsent.2.1, MsgType.tryFrom_toU8, wp_refNew, if_pos hne,
    hsent.1, hseal, if_true]
  apply wp_handleRespConf_done ha hrx hidx hq hhs hsidi hnext hses hsidm hkey hnonce
  simp only [wp_pure]
  exact hQ

end Done

end Rosenpass
