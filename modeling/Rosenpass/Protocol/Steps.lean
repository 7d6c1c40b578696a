/-
What one operation of the server does, from what its handlers do.

`handle_msg` dispatches on the message type to one handler, around which it checks the
received message and seals the answer; `handle_msg_under_load` either calls
`handle_msg` or answers with a CookieReply; a step of the server runs one public
operation. So a property of the state that every handler keeps is kept by every step
(`keeps_exec`), and the first byte of what a step sends is the type of the answer its
handler wrote.
-/
import Rosenpass.Protocol.Frame
import Rosenpass.Protocol.Network

namespace Rosenpass

open EStateM Buffer

variable {P : Primitives}

/-! ## The transmit buffer -/

/-- The call left the transmit buffer as it was. -/
def SameTx (c c' : Ctx) : Prop := c'.tx = c.tx

instance : Std.Refl SameTx := ⟨fun _ => rfl⟩

instance : IsTrans Ctx SameTx := ⟨fun _ _ _ h₁ h₂ => h₂.trans h₁⟩

theorem sameTx_liftE {α : Type} (x : Except Fault α) : Keeps SameTx (liftE x) := by
  cases x <;> exact fun _ => rfl

theorem sameTx_PeerPtr_get (p : PeerPtr) : Keeps SameTx p.get :=
  Keeps.bind (fun _ => rfl) fun _ => sameTx_liftE _

theorem sameTx_PeerPtr_modify (p : PeerPtr) (f : Peer → Peer) : Keeps SameTx (p.modify f) :=
  Keeps.bind (sameTx_PeerPtr_get p) fun _ _ => rfl

theorem sameTx_modifyHandshake (p : IniHsPtr) (f : InitiatorHandshake → InitiatorHandshake) :
    Keeps SameTx (p.modifyHandshake f) := by
  refine Keeps.bind (sameTx_PeerPtr_get _) fun q => ?_
  split
  · exact sameTx_PeerPtr_modify _ _
  · exact fun _ => rfl

theorem sameTx_storeMsgForRetransmission (env : Env) (p : IniHsPtr) (msg : Bytes) :
    Keeps SameTx (p.storeMsgForRetransmission env msg) :=
  Keeps.bind (sameTx_modifyHandshake p _) fun _ => sameTx_modifyHandshake p _

theorem sameTx_registerSession (id : Bytes) (peer : PeerPtr) : Keeps SameTx (registerSession id peer) := by
  refine Keeps.bind (fun _ => rfl) fun _ => ?_
  split
  · exact Keeps.ite (fun _ => rfl) fun _ => rfl
  · exact fun _ => rfl

theorem sameTx_takeSlot {α : Type} {slot : Peer → Option α} {clear : Peer → Peer} {sid : α → Bytes}
    (peer : PeerPtr) : Keeps SameTx (takeSlot slot clear sid peer) := by
  refine Keeps.bind (sameTx_PeerPtr_get peer) fun _ => Keeps.bind (sameTx_PeerPtr_modify peer _) fun _ => ?_
  dsimp only
  split
  · refine Keeps.bind ?_ fun _ _ => rfl
    exact Keeps.bind (sameTx_PeerPtr_get peer) fun _ => Keeps.ite (fun _ => rfl) fun _ => rfl
  · exact fun _ => rfl

theorem sameTx_SessionPtr_insert (p : SessionPtr) (ses : Session) : Keeps SameTx (p.insert ses) :=
  Keeps.bind (sameTx_takeSlot _) fun _ => Keeps.bind (sameTx_registerSession _ _) fun _ => sameTx_PeerPtr_modify _ _

/-! ## Answering an InitHello -/

/-- The transmit buffer `tx'` holds, over `tx`, a RespHello whose biscuit `store_biscuit`
made on the server `srv`, leaving it as `srv'`, beside the session ids it was made for. -/
def RespHelloOut (P : Primitives) (srv srv' : CryptoServer) (tx tx' : Bytes) : Prop :=
  tx'.length = tx.length ∧ ∃ hs pid ct, BiscuitOf P srv srv' hs pid ct ∧ pid.length = KEY_LEN ∧
    hs.ck.length = KEY_LEN ∧ (Envelope.field (RespHello.biscuit P)).get tx' = ct ∧
    (Envelope.field RespHello.sidi).get tx' = hs.sidi ∧ (Envelope.field RespHello.sidr).get tx' = hs.sidr

/-- The fields of a RespHello, stored in the order `handle_init_hello` stores them. -/
theorem respHelloOut_of_fill {srv srv' : CryptoServer} {tx : Bytes} {hs : HandshakeState} {pid ct : Bytes}
    {ecti scti auth : Bytes} (hof : BiscuitOf P srv srv' hs pid ct) (hpid : pid.length = KEY_LEN)
    (hno : srv.biscuitCtr.length = BISCUIT_ID_LEN) (hck : hs.ck.length = KEY_LEN)
    (hi : hs.sidi.length = 4) (hr : hs.sidr.length = 4) (he : ecti.length = P.ephemeralKem.CT_LEN)
    (hs' : scti.length = P.staticKem.CT_LEN) (ha : auth.length = TAG_LEN)
    (htx : Envelope.size (RespHello.size P) ≤ tx.length) :
    RespHelloOut P srv srv' tx
      ((Envelope.field (RespHello.auth P)).set auth ((Envelope.field (RespHello.biscuit P)).set ct
        ((Envelope.field (RespHello.scti P)).set scti ((Envelope.field (RespHello.ecti P)).set ecti
          ((Envelope.field RespHello.sidr).set hs.sidr ((Envelope.field RespHello.sidi).set hs.sidi tx)))))) := by
  have hct := hof.length hpid hno hck
  have hfit : Field.Fits tx.length [(Envelope.field RespHello.sidi, hs.sidi), (Envelope.field RespHello.sidr, hs.sidr),
      (Envelope.field (RespHello.ecti P), ecti), (Envelope.field (RespHello.scti P), scti),
      (Envelope.field (RespHello.biscuit P), ct), (Envelope.field (RespHello.auth P), auth)] := by
    simp only [Envelope.size, RespHello.size] at htx
    intro w hw
    simp only [List.mem_cons, List.not_mem_nil, or_false] at hw
    rcases hw with rfl | rfl | rfl | rfl | rfl | rfl <;>
      simp only [Envelope.field, RespHello.sidi, RespHello.sidr, RespHello.ecti, RespHello.scti,
        RespHello.biscuit, RespHello.auth, Field.stop, hi, hr, he, hs', hct, ha, true_and] <;> omega
  refine ⟨Field.length_setAll hfit, hs, pid, ct, hof, hpid, hck, ?_, ?_, ?_⟩
  · exact Field.get_setAll_of_last [_, _, _, _] hfit (by
      simp [Envelope.field, RespHello.biscuit, RespHello.auth, Field.Disjoint, Field.stop]; omega)
  · exact Field.get_setAll_of_last [] hfit (by
      simp [Envelope.field, RespHello.sidi, RespHello.sidr, RespHello.ecti, RespHello.scti, RespHello.biscuit,
        RespHello.auth, Field.Disjoint, Field.stop]; omega)
  · exact Field.get_setAll_of_last [_] hfit (by
      simp [Envelope.field, RespHello.sidr, RespHello.ecti, RespHello.scti, RespHello.biscuit,
        RespHello.auth, Field.Disjoint, Field.stop]; omega)

/-- Sealing keeps the RespHello's fields. -/
theorem RespHelloOut.sealed {srv srv' : CryptoServer} {tx tx₁ tx₂ : Bytes} {t : MsgType}
    (h : RespHelloOut P srv srv' tx tx₁) (hs : Sealed (RespHello.size P) t tx₁ tx₂) :
    RespHelloOut P srv srv' tx tx₂ := by
  obtain ⟨hl, hs', pid, ct, hof, hpid, hck, hb, hi, hr⟩ := h
  obtain ⟨hl₂, -, hpl⟩ := hs
  have hin : ∀ f : Field, f ∈ [RespHello.biscuit P, RespHello.sidi, RespHello.sidr] → f.stop ≤ RespHello.size P := by
    simp [RespHello.biscuit, RespHello.sidi, RespHello.sidr, RespHello.size, Field.stop]
    omega
  refine ⟨hl₂.trans hl, hs', pid, ct, hof, hpid, hck, ?_, ?_, ?_⟩
  · rw [hpl _ (hin _ (by simp)), hb]
  · rw [hpl _ (hin _ (by simp)), hi]
  · rw [hpl _ (hin _ (by simp)), hr]

/-- The biscuit of such a RespHello opens, on the server it was made on, to the number it
was made with. -/
theorem RespHelloOut.carriedNo {srv srv' : CryptoServer} {tx tx' : Bytes} (h : RespHelloOut P srv srv' tx tx')
    (hx : P.xaead.Correct) (hno : srv.biscuitCtr.length = BISCUIT_ID_LEN) (hspkm : srv'.spkm = srv.spkm) :
    carriedNo P srv' tx' = some srv.biscuitCtr := by
  obtain ⟨-, hs, pid, ct, hof, hpid, hck, hb, hi, hr⟩ := h
  exact hof.carriedNo hx hpid hno hck hspkm hb hi hr

/-- What is sent of a RespHello carries what the buffer carries. -/
theorem carriedNo_take (srv : CryptoServer) (m : Bytes) :
    carriedNo P srv (m.take (Envelope.size (RespHello.size P))) = carriedNo P srv m := by
  have h : ∀ f : Field, f.stop ≤ RespHello.size P →
      (Envelope.field f).get (m.take (Envelope.size (RespHello.size P))) = (Envelope.field f).get m :=
    fun f hf => Field.get_take _ (by simp only [Envelope.field, Envelope.size, Field.stop] at hf ⊢; omega)
  have hb := h (RespHello.biscuit P) (by simp [RespHello.biscuit, RespHello.size, Field.stop])
  have hi := h RespHello.sidi (by simp [RespHello.sidi, RespHello.size, Field.stop]; omega)
  have hr := h RespHello.sidr (by simp [RespHello.sidr, RespHello.size, Field.stop]; omega)
  simp only [carriedNo, hb, hi, hr]

/-- `handle_init_hello` fails where it started, before it writes anything; when it
succeeds it has made one `BiscuitStep`, answers for a peer that exists, and, in buffers of
the sizes `handle_msg` checks, has filled in a RespHello around the biscuit it made. -/
theorem wp_handleInitHello {env : Env} {rx : Bytes} {c : Ctx} {Q : PeerPtr → Ctx → Prop}
    {E : Fault → Ctx → Prop} (hE : ∀ e, E e c)
    (hQ : ∀ peer c', BiscuitStep env c.srv c'.srv → (∃ q, c.srv.peer peer.val = .ok q) →
      (rx.length = Envelope.size (InitHello.size P) → Envelope.size (RespHello.size P) ≤ c.tx.length →
        c.srv.biscuitCtr.length = BISCUIT_ID_LEN → RespHelloOut P c.srv c'.srv c.tx c'.tx) → Q peer c') :
    wp (handleInitHello P env rx) Q E c := by
  simp only [handleInitHello, wp_bind, wp_getSrv, wp_liftE]
  -- the checks: the peer id (IHR6), the peer, and the auth tag (IHR8)
  split
  · next core₆ hdec =>
    split
    · next peer _ =>
      simp only [wp_bind, wp_pure, wp_PeerPtr_get]
      split
      · next q hq =>
        simp only [wp_liftE]
        split
        · next core₈ hdec₈ =>
          simp only [wp_writePayload]
          apply wp_storeBiscuit (q := q) (by exact hq)
          intro ct c' htx' hstep hof
          refine hQ peer _ hstep ⟨q, hq⟩ fun hrx htx hno => ?_
          -- the initiator's session id comes through IHR6 and IHR8 unchanged
          have hsidi : core₈.2.sidi = (Envelope.field InitHello.sidi).get rx := by
            rw [(HandshakeState.decryptAndMix_eq_ok hdec₈).2, HandshakeState.sidi_mix, HandshakeState.sidi_mix,
              (HandshakeState.decryptAndMix_eq_ok hdec).2]
            rfl
          rw [htx']
          apply respHelloOut_of_fill hof (by simp [Peer.pidt]) hno (by simp)
          · simp only [HandshakeState.sidi_encapsAndMix, HandshakeState.sidi_mix, hsidi]
            exact Field.length_get (Envelope.field InitHello.sidi) (by
              simp only [hrx, Envelope.field, InitHello.sidi, Envelope.size, InitHello.size, Field.stop]; omega)
          all_goals simp [htx, SESSION_ID_LEN]
        · exact hE _
      · exact hE _
    · exact hE _
  · exact hE _

/-- `handle_msg` on a message of the InitHello type fails where it started, or answers
with a sealed RespHello: the server has made one `BiscuitStep`, and the RespHello carries,
when the counter has its twelve bytes, a biscuit of the counter's number. -/
theorem wp_handleMsg_initHello {env : Env} {rx : Bytes} {c : Ctx} {Q : HandleMsgResult → Ctx → Prop}
    {E : Fault → Ctx → Prop} (hrx : rx.headD 0 = MsgType.InitHello.toU8) (hE : ∀ e, E e c)
    (hQ : ∀ c', BiscuitStep env c.srv c'.srv → c'.tx.headD 0 = MsgType.RespHello.toU8 →
      (c.srv.biscuitCtr.length = BISCUIT_ID_LEN → RespHelloOut P c.srv c'.srv c.tx c'.tx) →
      Q ⟨none, some (Envelope.size (RespHello.size P))⟩ c') :
    wp (handleMsg P env rx) Q E c := by
  simp only [handleMsg, wp_bind, wp_ensure, wp_getSrv, hrx, MsgType.tryFrom_toU8, wp_refNew,
    wp_truncatingCastInto]
  split_ifs with _ hlen _ htx
  · apply wp_handleInitHello hE
    intro peer c' hstep hpeer hout
    obtain ⟨q, hq⟩ := hpeer
    apply wp_sealAndCommitMsg
    · intro e _ he
      rw [hstep.peer, hq] at he
      cases he
    intro tx' hty hsealed
    simp only [wp_pure, Envelope.size, Bool.false_eq_true, ↓reduceIte]
    refine hQ _ hstep hty fun hno => (hout hlen htx hno).sealed (hsealed ?_)
    rw [(hout hlen htx hno).1]
    exact htx
  all_goals exact hE _

/-! ## Dispatch -/

/-- A relation between the states before and after a call that the handlers of the
messages other than InitHello keep, and `store_msg_for_retransmission`. -/
structure HandlersKeep (P : Primitives) (R : Ctx → Ctx → Prop) : Prop where
  sameSrv : ∀ c c', SameSrv c c' → R c c'
  respHello : ∀ env rx, Keeps R (handleRespHello P env rx)
  initConf : ∀ env rx, Keeps R (handleInitConf P env rx)
  respConf : ∀ rx, Keeps R (handleRespConf P rx)
  cookieReply : ∀ env rx, Keeps R (handleCookieReply P env rx)
  storeMsg : ∀ env (p : IniHsPtr) msg, Keeps R (p.storeMsgForRetransmission env msg)

theorem HandlersKeep.mono {R R' : Ctx → Ctx → Prop} (h : HandlersKeep P R) (hR : ∀ c c', R c c' → R' c c') :
    HandlersKeep P R' where
  sameSrv c c' hc := hR c c' (h.sameSrv c c' hc)
  respHello env rx := Keeps.mono hR (h.respHello env rx)
  initConf env rx := Keeps.mono hR (h.initConf env rx)
  respConf rx := Keeps.mono hR (h.respConf rx)
  cookieReply env rx := Keeps.mono hR (h.cookieReply env rx)
  storeMsg env p msg := Keeps.mono hR (h.storeMsg env p msg)

/-- An observation blind to the handshakes' bookkeeping, the sessions and the biscuit
numbers is kept by the handlers. -/
theorem Observation.handlersKeep {β γ : Type} {o : Observation β γ} (ho : o.HandshakeBlind) (hs : o.SessionBlind)
    (hu : ∀ q b, o.peer { q with biscuitUsed := b } = o.peer q) : HandlersKeep P o.Same where
  sameSrv _ _ := o.same_of_sameSrv
  respHello := keeps_handleRespHello ho hs
  initConf := keeps_handleInitConf ho hs hu
  respConf := keeps_handleRespConf ho hs
  cookieReply := keeps_handleCookieReply ho
  storeMsg := keeps_storeMsgForRetransmission ho

section Dispatch

variable {R : Ctx → Ctx → Prop} [Std.Refl R] [IsTrans Ctx R] (h : HandlersKeep P R)
include h

omit [Std.Refl R] [IsTrans Ctx R] in
theorem HandlersKeep.keeps {α : Type} {x : ServerM α} (hx : Keeps SameSrv x) : Keeps R x :=
  Keeps.mono h.sameSrv hx

omit h [IsTrans Ctx R] in
theorem keeps_handleInitHello (hih : ∀ env c c', BiscuitStep env c.srv c'.srv → R c c') (env : Env) (rx : Bytes) :
    Keeps R (handleInitHello P env rx) :=
  fun c => wp_state (wp_handleInitHello (fun _ => refl_of R c) fun _ c' hstep _ _ => hih env c c' hstep)

variable (hih : ∀ env c c', BiscuitStep env c.srv c'.srv → R c c')
include hih

theorem HandlersKeep.keeps_handleMsg (env : Env) (rx : Bytes) : Keeps R (handleMsg P env rx) := by
  unfold handleMsg
  with_reducible repeat' first
    | apply h.keeps
      first
        | exact keeps_pure _ | exact keeps_bail _ | exact keeps_getSrv | exact keeps_get
        | exact keeps_ensure _ _ | exact keeps_refNew _ _ | exact keeps_truncatingCastInto _
        | exact keeps_sealAndCommitMsg _ _ _
    | exact keeps_handleInitHello hih _ _
    | exact h.respHello _ _
    | exact h.initConf _ _
    | exact h.respConf _
    | exact h.cookieReply _ _
    | exact h.storeMsg _ _ _
    | dsimp only
    | split
    | (intro)
    | apply Keeps.bind

theorem HandlersKeep.keeps_scanCookieSecrets (env : Env) (rx host : Bytes) :
    ∀ (l : List (Option ServerCookieSecretPtr)) (st : CookieScan), Keeps R (scanCookieSecrets P env rx host l st)
  | [], _ => h.keeps (keeps_pure _)
  | none :: _, _ => h.keeps (keeps_pure _)
  | some cs :: rest, st => by
    unfold scanCookieSecrets
    refine Keeps.bind (h.keeps keeps_getSrv) fun srv => Keeps.bind (h.keeps (keeps_refNew _ _)) fun _ => ?_
    exact Keeps.ite (Keeps.bind (h.keeps_handleMsg hih env rx) fun _ => h.keeps (keeps_pure _))
      (HandlersKeep.keeps_scanCookieSecrets env rx host rest _)

variable (hcs : ∀ c k f, R c { c with srv := c.srv.updateCookieSecret k f })
include hcs

omit h hih in
theorem keeps_activeOrRetiredCookieSecrets (hsame : ∀ c c', SameSrv c c' → R c c') (env : Env) :
    Keeps R (activeOrRetiredCookieSecrets env) := by
  refine Keeps.bind (Keeps.mono hsame keeps_getSrv) fun srv => ?_
  dsimp only
  exact Keeps.ite (Keeps.bind (fun c => hcs c _ _) fun _ => Keeps.mono hsame (keeps_pure _))
    (Keeps.mono hsame (keeps_pure _))

theorem HandlersKeep.keeps_handleMsgUnderLoad (env : Env) (rx host : Bytes) :
    Keeps R (handleMsgUnderLoad P env rx host) := by
  unfold handleMsgUnderLoad
  with_reducible repeat' first
    | apply h.keeps
      first
        | exact keeps_pure _ | exact keeps_bail _ | exact keeps_throw _ | exact keeps_getSrv
        | exact keeps_modifyTx _ | exact keeps_truncatingCastInto _
    | exact h.keeps_handleMsg hih _ _
    | exact h.keeps_scanCookieSecrets hih _ _ _ _ _
    | exact keeps_activeOrRetiredCookieSecrets hcs h.sameSrv _
    | dsimp only
    | split
    | (intro)
    | apply Keeps.bind

/-- A relation kept by every handler, by `add_peer`, `initiate_handshake` and `poll`, and
by rotating a cookie secret, is kept by every operation. -/
theorem HandlersKeep.keeps_exec (hadd : ∀ psk pk, Keeps R (addPeer P psk pk))
    (hinit : ∀ env peer, Keeps R (initiateHandshake P env peer)) (hpoll : ∀ env, Keeps R (poll env))
    (env : Env) : ∀ op : Op, Keeps R (op.exec P env)
  | .addPeer psk pk => Keeps.map _ (hadd psk pk)
  | .initiateHandshake peer => Keeps.map _ (hinit env peer)
  | .handleMsg rx => Keeps.map _ (h.keeps_handleMsg hih env rx)
  | .handleMsgUnderLoad rx host => Keeps.map _ (h.keeps_handleMsgUnderLoad hih hcs env rx host)
  | .poll => Keeps.map _ (hpoll env)
  | .retransmitHandshake peer => Keeps.map _ (h.keeps (keeps_retransmitHandshake peer))

end Dispatch

/-! ## Under load -/

section UnderLoad

variable {env : Env} {rx host : Bytes} {c : Ctx} {E : Fault → Ctx → Prop}

/-- `active_or_retired_cookie_secrets()` re-randomizes at most one cookie secret. -/
theorem wp_activeOrRetiredCookieSecrets {Q : List (Option ServerCookieSecretPtr) → Ctx → Prop}
    (h : ∀ l c₁, (c₁ = c ∨ ∃ k f, c₁ = { c with srv := c.srv.updateCookieSecret k f }) → Q l c₁) :
    wp (activeOrRetiredCookieSecrets env) Q E c := by
  simp only [activeOrRetiredCookieSecrets, wp_bind, wp_getSrv, wp_ite, wp_pure, wp_modifySrv]
  -- which secrets are live decides the list, and whether the older one is re-randomized
  split_ifs <;> first | exact h _ _ (.inl rfl) | exact h _ _ (.inr ⟨_, _, rfl⟩)

/-- The loop over the cookie secrets reads the server and the message only: it calls
`handle_msg` where it started, or ends there with what it scanned. -/
theorem wp_scanCookieSecrets {Q : HandleMsgResult ⊕ CookieScan → Ctx → Prop}
    (hmsg : wp (handleMsg P env rx) (fun r => Q (.inl r)) E c) (hscan : ∀ st, Q (.inr st) c) (hE : ∀ e, E e c) :
    ∀ (l : List (Option ServerCookieSecretPtr)) (st : CookieScan), wp (scanCookieSecrets P env rx host l st) Q E c
  | [], st => hscan st
  | none :: _, st => hscan st
  | some cs :: rest, st => by
    simp only [scanCookieSecrets, wp_bind, wp_getSrv, wp_refNew, wp_ite, wp_pure]
    split_ifs
    · exact hmsg
    · exact wp_scanCookieSecrets hmsg hscan hE rest _
    · exact hE _

theorem CookieReply.msgType_set (x : UInt8) (b : Bytes) : CookieReply.msgType.set [x] b = x :: b.drop 1 := by
  simp [CookieReply.msgType, Field.set, write]

/-- `handle_msg_under_load` calls `handle_msg`, after re-randomizing at most one cookie
secret for an InitHello, or answers with a CookieReply; `S` is what holds of the states
in between. -/
theorem wp_handleMsgUnderLoad {Q : HandleMsgResult → Ctx → Prop} {S : Ctx → Prop} (hS : S c)
    (hrot : ∀ k f, S { c with srv := c.srv.updateCookieSecret k f })
    (hmsg : ∀ c₁, S c₁ → c₁.tx = c.tx → wp (handleMsg P env rx) Q E c₁)
    (hreply : ∀ c₁ tx' len, S c₁ → tx'.headD 0 = MsgType.CookieReply.toU8 → Q ⟨none, some len⟩ { c₁ with tx := tx' })
    (hE : ∀ e c₁ tx', S c₁ → E e { c₁ with tx := tx' }) :
    wp (handleMsgUnderLoad P env rx host) Q E c := by
  simp only [handleMsgUnderLoad]
  split
  · rw [wp_bind, wp_pure]
    split
    · exact hmsg c hS rfl
    · rw [wp_bind]
      apply wp_activeOrRetiredCookieSecrets
      intro l c₁ hc₁
      have hS₁ : S c₁ := by
        rcases hc₁ with rfl | ⟨k, f, rfl⟩
        exacts [hS, hrot k f]
      have htx₁ : c₁.tx = c.tx := by
        rcases hc₁ with rfl | ⟨k, f, rfl⟩ <;> rfl
      rw [wp_bind]
      refine wp_scanCookieSecrets (by simpa [wp_pure] using hmsg c₁ hS₁ htx₁) (fun st => ?_) (fun e => hE e c₁ c₁.tx hS₁) l _
      dsimp only
      split
      · exact hE _ c₁ c₁.tx hS₁
      · simp only [wp_bind, wp_getSrv, wp_truncatingCastInto, wp_modifyTx, wp_pure]
        split_ifs
        · apply hreply _ _ _ hS₁
          rw [CookieReply.msgType_set, Field.set_cons _ (by decide), Field.set_cons _ (by decide),
            Field.set_cons _ (by simp [CookieReply.padding, CookieReply.innerSize])]
          rfl
        · exact hE _ c₁ c₁.tx hS₁
    · exact hE _ c c.tx hS
  · exact hE _ c c.tx hS

end UnderLoad

/-! ## What a call sends -/

/-- What `handle_msg` sends starts with the first byte of the transmit buffer. -/
theorem headD_sent {tx m : Bytes} {x : Option PeerPtr} {len : Nat}
    (h : Outcome.sent tx (.msg ⟨x, if len = 0 then none else some len⟩) = some m) : m.headD 0 = tx.headD 0 := by
  by_cases hlen : len = 0
  · simp [Outcome.sent, hlen] at h
  · simp only [Outcome.sent, hlen, if_false, Option.map_some, Option.some.injEq] at h
    subst h
    cases tx with
    | nil => simp
    | cons b tx => simp [List.take_cons (Nat.pos_of_ne_zero hlen)]

section Sent

variable {R : Ctx → Ctx → Prop} [Std.Refl R] [IsTrans Ctx R] (h : HandlersKeep P R)
include h

/-- `handle_msg` on a message not of the InitHello type keeps what the handlers keep, and
answers, if at all, with an InitConf or an EmptyData: never with a RespHello. -/
theorem wp_handleMsg_notInitHello {env : Env} {rx : Bytes} {c : Ctx} (hrx : rx.headD 0 ≠ MsgType.InitHello.toU8) :
    wp (handleMsg P env rx)
      (fun res c' => R c c' ∧ ∀ m, Outcome.sent c'.tx (.msg res) = some m → m.headD 0 ≠ MsgType.RespHello.toU8)
      (fun _ c' => R c c') c := by
  have hsame : ∀ c₁ tx', R c c₁ → R c { c₁ with tx := tx' } := fun c₁ tx' h₁ =>
    trans_of R h₁ (h.sameSrv c₁ { c₁ with tx := tx' } rfl)
  simp only [handleMsg, wp_bind, wp_ensure, wp_getSrv]
  split_ifs
  · split
    · next ht => exact absurd (MsgType.toU8_of_tryFrom ht).symm hrx
    · -- a RespHello is answered with an InitConf, kept for retransmission
      simp only [wp_bind, wp_refNew, wp_ensure, wp_truncatingCastInto]
      split_ifs
      · refine Keeps.wp_of (h.respHello env rx) (fun peer c₁ h₁ => ?_) fun _ _ h₁ => h₁
        apply wp_sealAndCommitMsg (fun _ _ _ => hsame _ _ h₁)
        intro tx' hty _
        simp only [wp_getCtx]
        refine Keeps.wp_of (Keeps.and (h.storeMsg env peer.hs _) (sameTx_storeMsgForRetransmission env peer.hs _))
          (fun _ c₃ h₃ => ?_) fun _ _ h₃ => trans_of R (hsame _ _ h₁) h₃.1
        simp only [wp_pure]
        refine ⟨trans_of R (hsame _ _ h₁) h₃.1, fun m hm => ?_⟩
        rw [headD_sent hm, h₃.2, hty]
        decide
      all_goals exact refl_of R c
    · -- an InitConf is answered with an EmptyData
      simp only [wp_bind, wp_refNew, wp_ensure, wp_truncatingCastInto]
      split_ifs
      · refine Keeps.wp_of (h.initConf env rx) (fun peer c₁ h₁ => ?_) fun _ _ h₁ => h₁
        apply wp_sealAndCommitMsg (fun _ _ _ => hsame _ _ h₁)
        intro tx' hty _
        simp only [wp_pure]
        refine ⟨hsame _ _ h₁, fun m hm => ?_⟩
        rw [headD_sent hm, hty]
        decide
      all_goals exact refl_of R c
    · -- an EmptyData and a CookieReply have no answer
      simp only [wp_bind, wp_refNew, wp_ensure]
      split_ifs
      · refine Keeps.wp_of (h.respConf rx) (fun _ c₁ h₁ => ?_) fun _ _ h₁ => h₁
        simp only [wp_pure]
        exact ⟨h₁, fun m hm => by simp [Outcome.sent] at hm⟩
      all_goals exact refl_of R c
    · exact refl_of R c
    · simp only [wp_bind, wp_refNew]
      split_ifs
      · refine Keeps.wp_of (h.cookieReply env rx) (fun _ c₁ h₁ => ?_) fun _ _ h₁ => h₁
        simp only [wp_pure]
        exact ⟨h₁, fun m hm => by simp [Outcome.sent] at hm⟩
      · exact refl_of R c
    · exact refl_of R c
  · exact refl_of R c

end Sent

end Rosenpass
