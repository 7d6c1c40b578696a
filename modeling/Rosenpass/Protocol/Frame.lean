/-
Frames: what each operation of the server leaves alone.

An observation looks at each peer and at the rest of the server. Most of the protocol
writes only handshakes, the index of session ids and the stores of keys: an
observation blind to those is kept by every operation that does not also go live or
accept a biscuit. The frames are `Keeps` facts, composed along the binds of each
function from those of the functions it calls, so that a function's frame is proved
once and its callers cite it.
-/
import Rosenpass.Protocol.Spec

namespace Rosenpass

open EStateM

variable {P : Primitives} {β γ : Type}

/-! ## Observations -/

/-- What a property looks at: something of each peer, and something of the rest. -/
structure Observation (β γ : Type) where
  peer : Peer → β
  srv : CryptoServer → γ

namespace Observation

variable (o : Observation β γ)

/-- The second state looks the same as the first. -/
def Same (c c' : Ctx) : Prop :=
  c'.srv.peers.map o.peer = c.srv.peers.map o.peer ∧ o.srv c'.srv = o.srv c.srv

instance : Std.Refl o.Same := ⟨fun _ => ⟨rfl, rfl⟩⟩

instance : IsTrans Ctx o.Same := ⟨fun _ _ _ h₁ h₂ => ⟨h₂.1.trans h₁.1, h₂.2.trans h₁.2⟩⟩

/-- The observation does not see what the handshakes' bookkeeping writes: a peer's
handshake and initiation request, the session ids of the index, the biscuit keys, the
cookie secrets and where polling starts. -/
structure HandshakeBlind : Prop where
  handshake : ∀ q h, o.peer { q with handshake := h } = o.peer q
  initiationRequested : ∀ q b, o.peer { q with initiationRequested := b } = o.peer q
  peers : ∀ srv (ps : List Peer), o.srv { srv with peers := ps } = o.srv srv
  sid : ∀ srv id v, o.srv (srv.setSid id v) = o.srv srv
  biscuitKey : ∀ srv k f, o.srv (srv.updateBiscuitKey k f) = o.srv srv
  cookieSecret : ∀ srv k f, o.srv (srv.updateCookieSecret k f) = o.srv srv
  peerPollOff : ∀ srv n, o.srv { srv with peerPollOff := n } = o.srv srv

/-- Nor the sessions. -/
structure SessionBlind : Prop where
  session : ∀ q s, o.peer { q with session := s } = o.peer q

theorem same_of_sameSrv {c c' : Ctx} (h : SameSrv c c') : o.Same c c' := by
  unfold SameSrv at h
  simp only [Same, h, and_self]

/-- The server unchanged looks the same, as the frames over any relation ask. -/
theorem sameSrv_le : ∀ c c', SameSrv c c' → o.Same c c' := fun _ _ => o.same_of_sameSrv

theorem same_updatePeer {c : Ctx} {i : Nat} {f : Peer → Peer} (hf : ∀ q, o.peer (f q) = o.peer q)
    (hb : ∀ srv (ps : List Peer), o.srv { srv with peers := ps } = o.srv srv) :
    o.Same c { c with srv := c.srv.updatePeer i f } := by
  refine ⟨?_, hb _ _⟩
  exact List.map_modify_of_forall hf _ _

theorem keeps_of_sameSrv {α : Type} {x : ServerM α} (h : Keeps SameSrv x) : Keeps o.Same x :=
  Keeps.mono (fun _ _ => o.same_of_sameSrv) h

theorem same_modifySrv {f : CryptoServer → CryptoServer}
    (h : ∀ srv, (f srv).peers.map o.peer = srv.peers.map o.peer ∧ o.srv (f srv) = o.srv srv) :
    Keeps o.Same (modifySrv f) :=
  fun c => h c.srv

end Observation

/-! ## Operations that write only the transmit buffer -/

section TxOnly

variable {α : Type}

theorem keeps_getSrv : Keeps SameSrv getSrv := fun _ => rfl

theorem keeps_get : Keeps SameSrv (get : ServerM Ctx) := fun _ => rfl

theorem keeps_pure (a : α) : Keeps SameSrv (pure a : ServerM α) := fun _ => rfl

theorem keeps_throw (e : Fault) : Keeps SameSrv (throw e : ServerM α) := fun _ => rfl

theorem keeps_bail (msg : String) : Keeps SameSrv (bail msg : ServerM α) := fun _ => rfl

theorem keeps_liftE (x : Except Fault α) : Keeps SameSrv (liftE x) := by
  cases x <;> exact fun _ => rfl

theorem keeps_modifyTx (f : Bytes → Bytes) : Keeps SameSrv (modifyTx f) := fun _ => rfl

theorem keeps_writePayload (f : Buffer.Field) (v : Bytes) : Keeps SameSrv (writePayload f v) :=
  keeps_modifyTx _

theorem keeps_ensure (c : Prop) [Decidable c] (msg : String) : Keeps SameSrv (ensure c msg) :=
  Keeps.ite (keeps_pure ()) (keeps_bail msg)

theorem keeps_refNew (rx : Bytes) (size : Nat) : Keeps SameSrv (refNew rx size) :=
  keeps_ensure _ _

theorem keeps_truncatingCastInto (size : Nat) : Keeps SameSrv (truncatingCastInto size) :=
  Keeps.bind keeps_get fun _ => Keeps.bind (keeps_liftE _) fun _ => keeps_pure ()

theorem keeps_PeerPtr_get (p : PeerPtr) : Keeps SameSrv p.get :=
  Keeps.bind keeps_getSrv fun _ => keeps_liftE _

theorem keeps_sealCookie (n : Nat) (peer : PeerPtr) : Keeps SameSrv (Envelope.sealCookie P n peer) := by
  refine Keeps.bind (keeps_PeerPtr_get peer) fun p => ?_
  split
  · exact Keeps.bind keeps_get fun _ => keeps_modifyTx _
  · exact keeps_pure ()

theorem keeps_sealMsg (n : Nat) (peer : PeerPtr) : Keeps SameSrv (Envelope.sealMsg P n peer) :=
  Keeps.bind (keeps_PeerPtr_get peer) fun _ => Keeps.bind keeps_get fun _ =>
    Keeps.bind (keeps_modifyTx _) fun _ => keeps_sealCookie n peer

theorem keeps_sealAndCommitMsg (peer : PeerPtr) (t : MsgType) (n : Nat) :
    Keeps SameSrv (sealAndCommitMsg P peer t n) :=
  Keeps.bind (keeps_modifyTx _) fun _ => Keeps.bind (keeps_sealMsg n peer) fun _ => keeps_pure _

theorem keeps_applyRetransmission (p : IniHsPtr) : Keeps SameSrv (p.applyRetransmission P) := by
  unfold IniHsPtr.applyRetransmission
  with_reducible repeat' first
    | exact keeps_pure _ | exact keeps_bail _ | exact keeps_PeerPtr_get _ | exact keeps_liftE _
    | exact keeps_modifyTx _ | exact keeps_truncatingCastInto _ | exact keeps_sealCookie _ _
    | dsimp only
    | split
    | (intro)
    | apply Keeps.bind

theorem keeps_retransmitHandshake (peer : PeerPtr) : Keeps SameSrv (retransmitHandshake P peer) :=
  keeps_applyRetransmission peer.hs

end TxOnly

/-! ## Frames over any relation

A relation that holds wherever only the transmit buffer changed, and that composes along
binds, is kept by a computation once it is kept by the writes the computation makes. Each
lemma of this section says so for one function whose frame several relations need, with
those writes as its hypotheses: the observations below, the nonces, the changes to one
peer and the stores are its instances. -/

namespace Frame

variable {R : Ctx → Ctx → Prop} [Std.Refl R] [IsTrans Ctx R] (hsrv : ∀ c c', SameSrv c c' → R c c')
include hsrv

theorem sched {r : PollResult} {wait : Timing} {f : ServerM PollResult} (hf : Keeps R f) :
    Keeps R (r.sched wait f) := by
  unfold PollResult.sched
  refine Keeps.ite (Keeps.mono hsrv (keeps_pure _)) (Keeps.ite ?_ (Keeps.mono hsrv (keeps_liftE _)))
  exact Keeps.bind hf fun _ => Keeps.mono hsrv (keeps_liftE _)

theorem pollChild {r : PollResult} {f : ServerM PollResult} (hf : Keeps R f) : Keeps R (r.pollChild f) :=
  Keeps.ite (Keeps.mono hsrv (keeps_pure _)) (Keeps.bind hf fun _ => Keeps.mono hsrv (keeps_liftE _))

/-- The polls of a list, one after another, keep what each keeps. -/
theorem pollChildren {α : Type} {poll : α → ServerM PollResult} (hp : ∀ a, Keeps R (poll a)) :
    ∀ (r : PollResult) (l : List α), Keeps R (PollResult.pollChildren poll r l)
  | r, [] => Keeps.mono hsrv (keeps_pure r)
  | r, a :: l => by
    unfold PollResult.pollChildren
    refine Keeps.ite (Keeps.mono hsrv (keeps_pure r)) ?_
    exact Keeps.bind (hp a) fun _ => Keeps.bind (Keeps.mono hsrv (keeps_liftE _)) fun r' =>
      pollChildren hp r' l

/-- The poll of a biscuit key or a cookie secret erases it or sleeps. -/
theorem pollStore {get : CryptoServer → CookieStore} {erase : CryptoServer → CryptoServer}
    (herase : Keeps R (modifySrv erase)) (epoch now : Timing) : Keeps R (Rosenpass.pollStore get erase epoch now) :=
  Keeps.bind (Keeps.mono hsrv keeps_getSrv) fun _ =>
    sched hsrv (Keeps.bind herase fun _ => Keeps.mono hsrv (keeps_pure _))

/-- Taking a handshake or a session clears the peer's slot and may drop its id. -/
theorem takeSlot {α : Type} {slot : Peer → Option α} {clear : Peer → Peer} {sid : α → Bytes} {peer : PeerPtr}
    (hclear : Keeps R (peer.modify clear)) (hunreg : ∀ id, Keeps R (unregisterSession id)) :
    Keeps R (Rosenpass.takeSlot slot clear sid peer) := by
  refine Keeps.bind (Keeps.mono hsrv (keeps_PeerPtr_get peer)) fun q => Keeps.bind hclear fun _ => ?_
  dsimp only
  split
  · refine Keeps.bind ?_ fun _ => Keeps.mono hsrv (keeps_pure _)
    exact Keeps.bind (Keeps.mono hsrv (keeps_PeerPtr_get peer)) fun _ =>
      Keeps.ite (Keeps.mono hsrv (keeps_pure ())) (hunreg _)
  · exact Keeps.mono hsrv (keeps_pure _)

theorem modifyHandshake {p : IniHsPtr} {f : InitiatorHandshake → InitiatorHandshake}
    (hhs : ∀ h, Keeps R (p.peer.modify fun q => { q with handshake := h })) : Keeps R (p.modifyHandshake f) := by
  refine Keeps.bind (Keeps.mono hsrv (keeps_PeerPtr_get p.peer)) fun q => ?_
  split
  · exact hhs _
  · exact Keeps.mono hsrv (keeps_bail _)

theorem IniHsPtr_poll {env : Env} {p : IniHsPtr} (hretr : Keeps R (p.registerRetransmission env)) :
    Keeps R (p.poll env) :=
  Keeps.bind (Keeps.mono hsrv (keeps_PeerPtr_get _)) fun _ =>
    sched hsrv (Keeps.bind hretr fun _ => Keeps.mono hsrv (keeps_pure _))

/-- A peer's poll may drop its handshake, drop its session, ask for an initiation and
register a retransmission, in that order. -/
theorem PeerPtr_poll {env : Env} {peer : PeerPtr} (htake : Keeps R peer.hs.take) (hstake : Keeps R peer.session.take)
    (hreq : Keeps R (peer.modify fun q => { q with initiationRequested := true }))
    (hretr : Keeps R (peer.hs.registerRetransmission env)) : Keeps R (peer.poll env) := by
  refine Keeps.bind (Keeps.mono hsrv (keeps_PeerPtr_get _)) fun _ =>
    Keeps.bind (sched hsrv (Keeps.bind htake fun _ => Keeps.mono hsrv (keeps_pure _))) fun _ => ?_
  refine Keeps.bind (Keeps.mono hsrv (keeps_PeerPtr_get _)) fun _ =>
    Keeps.bind (sched hsrv (Keeps.bind hstake fun _ => Keeps.mono hsrv (keeps_pure _))) fun _ => ?_
  refine Keeps.bind (Keeps.mono hsrv (keeps_PeerPtr_get _)) fun _ =>
    Keeps.bind (sched hsrv (Keeps.bind hreq fun _ => Keeps.mono hsrv (keeps_pure _))) fun _ => ?_
  exact pollChild hsrv (IniHsPtr_poll hsrv hretr)

/-- The whole poll: the biscuit keys and the cookie secrets, whose polls may erase them, the
peers, and the peer the next poll starts at. -/
theorem poll {env : Env} (hbk : ∀ k f, Keeps R (modifySrv fun srv => srv.updateBiscuitKey k f))
    (hcs : ∀ k f, Keeps R (modifySrv fun srv => srv.updateCookieSecret k f))
    (hpeer : ∀ p : PeerPtr, Keeps R (p.poll env))
    (hoff : ∀ n, Keeps R (modifySrv fun srv => { srv with peerPollOff := n })) : Keeps R (Rosenpass.poll env) := by
  unfold Rosenpass.poll
  refine Keeps.bind (pollChildren hsrv (fun _ => pollStore hsrv (hbk _ _) _ _) _ _) fun _ => ?_
  refine Keeps.bind (pollChildren hsrv (fun _ => pollStore hsrv (hcs _ _) _ _) _ _) fun _ => ?_
  refine Keeps.bind (Keeps.mono hsrv keeps_getSrv) fun _ => ?_
  refine Keeps.bind (pollChildren hsrv hpeer _ _) fun _ => ?_
  exact Keeps.bind (hoff _) fun _ => Keeps.mono hsrv (keeps_pure _)

/-- `handle_resp_hello` writes the InitConf, goes live as the initiator and keeps the
handshake, erased, for retransmitting it. -/
theorem handleRespHello
    (hlive : ∀ (p : SessionPtr) (hs : HandshakeState) (now : Timing), Keeps R (p.insert (hs.enterLive P now .Initiator)))
    (hhs : ∀ (p : PeerPtr) h, Keeps R (p.modify fun q => { q with handshake := h })) (env : Env) (rx : Bytes) :
    Keeps R (Rosenpass.handleRespHello P env rx) := by
  unfold Rosenpass.handleRespHello
  with_reducible repeat' first
    | apply Keeps.mono hsrv
      first
        | exact keeps_pure _ | exact keeps_bail _ | exact keeps_throw _ | exact keeps_getSrv
        | exact keeps_PeerPtr_get _ | exact keeps_liftE _ | exact keeps_ensure _ _
        | exact keeps_writePayload _ _
    | exact hlive _ _ _
    | exact hhs _ _
    | dsimp only
    | split
    | (intro)
    | apply Keeps.bind

end Frame


/-! ## The index, handshakes and sessions -/

section Database

variable {o : Observation β γ} (ho : o.HandshakeBlind)
include ho

theorem keeps_PeerPtr_modify {p : PeerPtr} {f : Peer → Peer} (hf : ∀ q, o.peer (f q) = o.peer q) :
    Keeps o.Same (p.modify f) :=
  Keeps.bind (o.keeps_of_sameSrv (keeps_PeerPtr_get p)) fun _ =>
    o.same_modifySrv fun _ => ⟨List.map_modify_of_forall hf _ _, ho.peers _ _⟩

theorem keeps_registerSession (id : Bytes) (peer : PeerPtr) : Keeps o.Same (registerSession id peer) := by
  refine Keeps.bind (o.keeps_of_sameSrv keeps_getSrv) fun srv => ?_
  split
  · exact Keeps.ite (o.keeps_of_sameSrv (keeps_pure ())) (o.keeps_of_sameSrv (keeps_bail _))
  · exact o.same_modifySrv fun srv => ⟨rfl, ho.sid srv id _⟩

theorem keeps_unregisterSession (id : Bytes) : Keeps o.Same (unregisterSession id) :=
  o.same_modifySrv fun srv => ⟨rfl, ho.sid srv id none⟩

theorem keeps_takeSlot {α : Type} {slot : Peer → Option α} {clear : Peer → Peer} {sid : α → Bytes}
    (hclear : ∀ q, o.peer (clear q) = o.peer q) (peer : PeerPtr) :
    Keeps o.Same (takeSlot slot clear sid peer) :=
  Frame.takeSlot o.sameSrv_le (keeps_PeerPtr_modify ho hclear) (keeps_unregisterSession ho)

theorem keeps_IniHsPtr_take (p : IniHsPtr) : Keeps o.Same p.take :=
  keeps_takeSlot ho (fun q => ho.handshake q none) p.peer

theorem keeps_IniHsPtr_insert (p : IniHsPtr) (hs : InitiatorHandshake) : Keeps o.Same (p.insert hs) :=
  Keeps.bind (keeps_registerSession ho _ _) fun _ => Keeps.bind (keeps_IniHsPtr_take ho p) fun _ =>
    keeps_PeerPtr_modify ho fun q => (ho.initiationRequested _ false).trans (ho.handshake q (some hs))

theorem keeps_SessionPtr_take (hs : o.SessionBlind) (p : SessionPtr) : Keeps o.Same p.take :=
  keeps_takeSlot ho (fun q => hs.session q none) p.peer

theorem keeps_SessionPtr_insert (hs : o.SessionBlind) (p : SessionPtr) (ses : Session) :
    Keeps o.Same (p.insert ses) :=
  Keeps.bind (keeps_SessionPtr_take ho hs p) fun _ => Keeps.bind (keeps_registerSession ho _ _) fun _ =>
    keeps_PeerPtr_modify ho fun q => hs.session q (some ses)

/-! ## Retransmission -/

theorem keeps_modifyHandshake (p : IniHsPtr) (f : InitiatorHandshake → InitiatorHandshake) :
    Keeps o.Same (p.modifyHandshake f) :=
  Frame.modifyHandshake o.sameSrv_le fun h => keeps_PeerPtr_modify ho fun q => ho.handshake q h

theorem keeps_registerRetransmission (env : Env) (p : IniHsPtr) :
    Keeps o.Same (p.registerRetransmission env) :=
  keeps_modifyHandshake ho p _

theorem keeps_registerImmediateRetransmission (env : Env) (p : IniHsPtr) :
    Keeps o.Same (p.registerImmediateRetransmission env) :=
  keeps_modifyHandshake ho p _

theorem keeps_storeMsgForRetransmission (env : Env) (p : IniHsPtr) (msg : Bytes) :
    Keeps o.Same (p.storeMsgForRetransmission env msg) :=
  Keeps.bind (keeps_modifyHandshake ho p _) fun _ => keeps_registerRetransmission ho env p

/-! ## Handlers -/

theorem keeps_handleInitiation (env : Env) (peer : PeerPtr) : Keeps o.Same (handleInitiation P env peer) := by
  unfold handleInitiation
  with_reducible repeat' first
    | apply o.keeps_of_sameSrv
      first
        | exact keeps_pure _ | exact keeps_getSrv | exact keeps_PeerPtr_get _ | exact keeps_writePayload _ _
    | exact keeps_IniHsPtr_insert ho _ _
    | (intro)
    | apply Keeps.bind

theorem keeps_initiateHandshake (env : Env) (peer : PeerPtr) : Keeps o.Same (initiateHandshake P env peer) := by
  unfold initiateHandshake
  with_reducible repeat' first
    | apply o.keeps_of_sameSrv
      first
        | exact keeps_pure _ | exact keeps_get | exact keeps_truncatingCastInto _
        | exact keeps_sealAndCommitMsg _ _ _
    | exact keeps_handleInitiation ho _ _
    | exact keeps_storeMsgForRetransmission ho _ _ _
    | (intro)
    | apply Keeps.bind

theorem keeps_handleCookieReply (env : Env) (rx : Bytes) : Keeps o.Same (handleCookieReply P env rx) := by
  unfold handleCookieReply
  with_reducible repeat' first
    | apply o.keeps_of_sameSrv
      first
        | exact keeps_pure _ | exact keeps_bail _ | exact keeps_throw _ | exact keeps_getSrv
        | exact keeps_PeerPtr_get _ | exact keeps_liftE _
    | exact keeps_PeerPtr_modify ho fun q => ho.handshake q _
    | exact keeps_registerImmediateRetransmission ho _ _
    | dsimp only
    | split
    | (intro)
    | apply Keeps.bind

variable (hs : o.SessionBlind)
include hs

theorem keeps_handleRespHello (env : Env) (rx : Bytes) : Keeps o.Same (handleRespHello P env rx) :=
  Frame.handleRespHello o.sameSrv_le (fun p _ _ => keeps_SessionPtr_insert ho hs p _)
    (fun _ h => keeps_PeerPtr_modify ho fun q => ho.handshake q h) env rx

theorem keeps_handleRespConf (rx : Bytes) : Keeps o.Same (handleRespConf P rx) := by
  unfold handleRespConf
  with_reducible repeat' first
    | apply o.keeps_of_sameSrv
      first
        | exact keeps_pure _ | exact keeps_bail _ | exact keeps_getSrv
        | exact keeps_PeerPtr_get _ | exact keeps_liftE _ | exact keeps_ensure _ _
    | exact keeps_PeerPtr_modify ho fun q => hs.session q _
    | exact keeps_IniHsPtr_take ho _
    | dsimp only
    | split
    | (intro)
    | apply Keeps.bind

/-- An observation that does not see the biscuit numbers either is kept by
`handle_init_conf`. -/
theorem keeps_handleInitConf (hu : ∀ q b, o.peer { q with biscuitUsed := b } = o.peer q) (env : Env) (rx : Bytes) :
    Keeps o.Same (handleInitConf P env rx) := by
  unfold handleInitConf
  with_reducible repeat' first
    | apply o.keeps_of_sameSrv
      first
        | exact keeps_pure _ | exact keeps_bail _ | exact keeps_throw _ | exact keeps_getSrv
        | exact keeps_PeerPtr_get _ | exact keeps_liftE _ | exact keeps_writePayload _ _
    | exact keeps_SessionPtr_insert ho hs _ _
    | exact keeps_IniHsPtr_take ho _
    | exact keeps_PeerPtr_modify ho fun q => hu q _
    | exact keeps_PeerPtr_modify ho fun q => hs.session q _
    | dsimp only
    | split
    | (intro)
    | apply Keeps.bind

/-! ## Polling -/

theorem keeps_PeerPtr_poll (env : Env) (peer : PeerPtr) : Keeps o.Same (peer.poll env) :=
  Frame.PeerPtr_poll o.sameSrv_le (keeps_IniHsPtr_take ho _) (keeps_SessionPtr_take ho hs _)
    (keeps_PeerPtr_modify ho fun q => ho.initiationRequested q _) (keeps_registerRetransmission ho env _)

theorem keeps_poll (env : Env) : Keeps o.Same (poll env) :=
  Frame.poll o.sameSrv_le (fun k _ => o.same_modifySrv fun srv => ⟨rfl, ho.biscuitKey srv k _⟩)
    (fun k _ => o.same_modifySrv fun srv => ⟨rfl, ho.cookieSecret srv k _⟩) (keeps_PeerPtr_poll ho hs env)
    fun _ => o.same_modifySrv fun _ => ⟨rfl, ho.peerPollOff _ _⟩

end Database

/-! ## Changes to one peer -/

/-- Only the peer at `p` may have changed, and no peer was added. -/
def OnlyPeer (p : Nat) (c c' : Ctx) : Prop :=
  c'.srv.peers.length = c.srv.peers.length ∧ ∀ j, j ≠ p → c'.srv.peers[j]? = c.srv.peers[j]?

section OnlyPeer

variable {p : Nat}

instance : Std.Refl (OnlyPeer p) := ⟨fun _ => ⟨rfl, fun _ _ => rfl⟩⟩

instance : IsTrans Ctx (OnlyPeer p) :=
  ⟨fun _ _ _ h₁ h₂ => ⟨h₂.1.trans h₁.1, fun j hj => (h₂.2 j hj).trans (h₁.2 j hj)⟩⟩

theorem OnlyPeer.of_sameSrv : ∀ c c', SameSrv c c' → OnlyPeer p c c' :=
  fun _ _ (h : _ = _) => ⟨by rw [h], fun _ _ => by rw [h]⟩

theorem OnlyPeer.keeps_of_sameSrv {α : Type} {x : ServerM α} (h : Keeps SameSrv x) : Keeps (OnlyPeer p) x :=
  Keeps.mono OnlyPeer.of_sameSrv h

theorem OnlyPeer.keeps_modifySrv {f : CryptoServer → CryptoServer} (h : ∀ srv, (f srv).peers = srv.peers) :
    Keeps (OnlyPeer p) (modifySrv f) :=
  fun c => show OnlyPeer p c { c with srv := f c.srv } from ⟨by rw [h], fun _ _ => by rw [h]⟩

theorem OnlyPeer.updatePeer (c : Ctx) (f : Peer → Peer) (tx : Bytes) : OnlyPeer p c ⟨c.srv.updatePeer p f, tx⟩ :=
  ⟨CryptoServer.length_updatePeer _ _ _, fun j hj => by rw [CryptoServer.getElem?_updatePeer, if_neg (Ne.symm hj)]⟩

theorem OnlyPeer.keeps_modify (peer : PeerPtr) (f : Peer → Peer) : Keeps (OnlyPeer peer.val) (peer.modify f) :=
  Keeps.bind (OnlyPeer.keeps_of_sameSrv (keeps_PeerPtr_get _)) fun _ c => OnlyPeer.updatePeer c f c.tx

theorem OnlyPeer.keeps_registerSession (id : Bytes) (peer : PeerPtr) :
    Keeps (OnlyPeer p) (registerSession id peer) := by
  refine Keeps.bind (OnlyPeer.keeps_of_sameSrv keeps_getSrv) fun srv => ?_
  split
  · exact Keeps.ite (OnlyPeer.keeps_of_sameSrv (keeps_pure ())) (OnlyPeer.keeps_of_sameSrv (keeps_bail _))
  · exact OnlyPeer.keeps_modifySrv fun _ => rfl

theorem OnlyPeer.keeps_takeSlot {α : Type} {slot : Peer → Option α} {clear : Peer → Peer}
    {sid : α → Bytes} (peer : PeerPtr) : Keeps (OnlyPeer peer.val) (takeSlot slot clear sid peer) :=
  Frame.takeSlot OnlyPeer.of_sameSrv (OnlyPeer.keeps_modify peer clear) fun _ => OnlyPeer.keeps_modifySrv fun _ => rfl

theorem OnlyPeer.keeps_SessionPtr_insert (peer : PeerPtr) (ses : Session) :
    Keeps (OnlyPeer peer.val) (peer.session.insert ses) :=
  Keeps.bind (OnlyPeer.keeps_takeSlot peer) fun _ => Keeps.bind (OnlyPeer.keeps_registerSession _ _) fun _ =>
    OnlyPeer.keeps_modify peer _

theorem OnlyPeer.keeps_IniHsPtr_take (peer : PeerPtr) : Keeps (OnlyPeer peer.val) peer.hs.take :=
  OnlyPeer.keeps_takeSlot peer

end OnlyPeer

end Rosenpass
