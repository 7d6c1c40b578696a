/-
Acknowledgement nonces (`handle_init_conf`, `enter_live`).

The responder acknowledges each InitConf with an EmptyData encrypted under the
transmission key `txkm` of the session its peer has and the nonce `txnm || 0^4`, and
increments `txnm` before it encrypts. A session goes live with `txnm = 0`, and an InitConf
whose biscuit is not newer than the peer's last one changes no session (ICR5), so a
replayed InitConf is acknowledged under the next nonce of the session the peer has.

Over a run the acknowledgements under each key carry the nonces `0, 1, 2, …` in the order
they go out, so that, while no key has `2^64` of them, no two share a key and a nonce. That
needs a session that goes live to have a key no session had before. A session has no
identity beyond its fields, so this is assumed of a step, and only of the sessions the code
lets go live: an initiator's, or a responder's whose peer's biscuit number the step raised.
That every other session after a step carries on its peer's session (the same key and role,
and the same nonce or, where the acknowledgement went out, one more) is proved: on the
responder's side it is ICR5, which lets a session go live only on a biscuit newer than the
peer's last, and ICR6, which raises the peer's number to the biscuit's.
-/
import Rosenpass.Properties.Biscuits
import Rosenpass.Protocol.Schedule

namespace Rosenpass

open EStateM Buffer LittleEndian

variable {P : Primitives}

/-! ## Sessions and their nonces -/

/-- The session of the peer at `i`, if there is one. -/
def sessionAt (srv : CryptoServer) (i : Nat) : Option Session := srv.peers[i]?.bind (·.session)

/-- The number of the last biscuit the peer at `i` accepted; zero where there is no peer. -/
def usedAt (srv : CryptoServer) (i : Nat) : Nat := (srv.peers[i]?.map fun q => value q.biscuitUsed).getD 0

/-- The step from `srv` to `srv'` raised the biscuit number of the peer at `i`. -/
def Raised (srv srv' : CryptoServer) (i : Nat) : Prop := usedAt srv i < usedAt srv' i

/-- The nonce of the acknowledgement sent with the counter `n`: `ctr || 0^4`. -/
def ackNonce (n : UInt64) : Bytes := bytes 8 n.toNat ++ zeros 4

/-- A session `y` carries on `x?`: the same session, with its key and role, and `k` nonces
more. -/
def Continues (x? : Option Session) (y : Session) (k : UInt64) : Prop :=
  ∃ x, x? = some x ∧ x.txkm = y.txkm ∧ x.handshakeRole = y.handshakeRole ∧ y.txnm = x.txnm + k

/-- What the code lets go live: an initiator's session, which `handle_resp_hello` makes from
the handshake the initiator started, or a responder's once its peer's biscuit number rose
(`raised`). -/
def GoesLive (y : Session) (raised : Prop) : Prop := y.handshakeRole = .Initiator ∨ raised

/-- A session `y` after a step, against the one its peer had (`x?`), having sent `k`
acknowledgements: the peer's session carried on, or a new one that has used `k` and that the
code let go live. -/
def NonceStep (x? : Option Session) (y : Session) (k : UInt64) (raised : Prop) : Prop :=
  Continues x? y k ∨ y.txnm = k ∧ GoesLive y raised

/-- No acknowledgement went out: no biscuit number fell, and every session is its peer's
carried on with the same nonce, or a new one that has used none. -/
structure NoncesStay (c c' : Ctx) : Prop where
  grows : UsedGrows c c'
  sessions : ∀ i y, sessionAt c'.srv i = some y → NonceStep (sessionAt c.srv i) y 0 (Raised c.srv c'.srv i)

theorem sessionAt_updatePeer (srv : CryptoServer) (i j : Nat) (f : Peer → Peer) :
    sessionAt (srv.updatePeer i f) j = if i = j then (srv.peers[j]?.map f).bind (·.session) else sessionAt srv j := by
  unfold sessionAt
  rw [CryptoServer.getElem?_updatePeer]
  split <;> rfl

theorem sessionAt_of_peer {srv : CryptoServer} {i : Nat} {q : Peer} (h : srv.peer i = .ok q) :
    sessionAt srv i = q.session := by
  rw [sessionAt, CryptoServer.peer_eq_ok.1 h, Option.bind_some]

theorem usedAt_of_getElem? {srv : CryptoServer} {i : Nat} {q : Peer} (h : srv.peers[i]? = some q) :
    usedAt srv i = value q.biscuitUsed := by
  rw [usedAt, h, Option.map_some, Option.getD_some]

/-- A change to a peer that keeps its biscuit number keeps every `usedAt`. -/
theorem usedAt_updatePeer (srv : CryptoServer) (i j : Nat) {f : Peer → Peer}
    (hbu : ∀ q, (f q).biscuitUsed = q.biscuitUsed) : usedAt (srv.updatePeer i f) j = usedAt srv j := by
  unfold usedAt
  rw [CryptoServer.getElem?_updatePeer]
  split
  · cases srv.peers[j]? <;> simp [hbu]
  · rfl

theorem UsedGrows.usedAt_le {c c' : Ctx} (h : UsedGrows c c') (i : Nat) : usedAt c.srv i ≤ usedAt c'.srv i := by
  cases hq : c.srv.peers[i]? with
  | none => simp [usedAt, hq]
  | some q =>
    obtain ⟨q', hq', hle⟩ := h i q hq
    rw [usedAt_of_getElem? hq, usedAt_of_getElem? hq']
    exact hle

theorem Continues.self (y : Session) : Continues (some y) y 0 := ⟨y, rfl, rfl, rfl, (UInt64.add_zero _).symm⟩

theorem NonceStep.self (y : Session) (r : Prop) : NonceStep (some y) y 0 r := .inl (Continues.self y)

theorem NonceStep.mono {x? : Option Session} {y : Session} {k : UInt64} {r r' : Prop} (h : NonceStep x? y k r)
    (hr : r → r') : NonceStep x? y k r' :=
  h.imp_right fun hnew => ⟨hnew.1, hnew.2.imp_right hr⟩

/-- Two steps: a session carried on past the middle state, or new in one of the steps, with
what each step's evidence gives at the end. -/
theorem NonceStep.trans {x? x₁? : Option Session} {y : Session} {k : UInt64} {r₁ r₂ r : Prop}
    (h₁ : ∀ x, x₁? = some x → NonceStep x? x 0 r₁) (h₂ : NonceStep x₁? y k r₂) (hr₁ : r₁ → r) (hr₂ : r₂ → r) :
    NonceStep x? y k r := by
  rcases h₂ with ⟨x, hx, hkey, hrole, hnm⟩ | ⟨hnm, hlive⟩
  · -- the session carries on one of the middle state, which carries on or is new
    rcases h₁ x hx with ⟨w, hw, hkey', hrole', hnm'⟩ | ⟨hx0, hxlive⟩
    · exact .inl ⟨w, hw, hkey'.trans hkey, hrole'.trans hrole, by rw [hnm, hnm', UInt64.add_zero]⟩
    · exact .inr ⟨by rw [hnm, hx0, UInt64.zero_add], hxlive.imp hrole.symm.trans hr₁⟩
  · exact .inr ⟨hnm, hlive.imp_right hr₂⟩

instance : Std.Refl NoncesStay :=
  ⟨fun c => ⟨refl_of UsedGrows c, fun i y hy => by rw [hy]; exact NonceStep.self y _⟩⟩

instance : IsTrans Ctx NoncesStay := ⟨fun _ _ _ h₁ h₂ => ⟨trans_of UsedGrows h₁.grows h₂.grows, fun i y hy =>
  -- a number raised in one step stays raised over both, since no step lowers it
  NonceStep.trans (h₁.sessions i) (h₂.sessions i y hy) (fun hr => lt_of_lt_of_le hr (h₂.grows.usedAt_le i))
    fun hr => lt_of_le_of_lt (h₁.grows.usedAt_le i) hr⟩⟩

/-! ## Frames -/

/-- The sessions and the biscuit numbers. -/
def sessionsUsed : Observation (Option Session × Bytes) Unit where
  peer q := (q.session, q.biscuitUsed)
  srv _ := ()

theorem sessionsUsed_handshakeBlind : sessionsUsed.HandshakeBlind :=
  ⟨fun _ _ => rfl, fun _ _ => rfl, fun _ _ => rfl, fun _ _ _ => rfl, fun _ _ _ => rfl, fun _ _ _ => rfl,
    fun _ _ => rfl⟩

theorem sessionAt_eq_bind (srv : CryptoServer) (i : Nat) :
    sessionAt srv i = (srv.peers[i]?.map sessionsUsed.peer).bind Prod.fst := by
  unfold sessionAt
  cases srv.peers[i]? <;> rfl

theorem NoncesStay.of_same {c c' : Ctx} (h : sessionsUsed.Same c c') : NoncesStay c c' := by
  have hi : ∀ i : Nat, c'.srv.peers[i]?.map sessionsUsed.peer = c.srv.peers[i]?.map sessionsUsed.peer := fun i => by
    simpa only [List.getElem?_map] using congrArg (fun l : List (Option Session × Bytes) => l[i]?) h.1
  refine ⟨fun i q hq => ?_, fun i y hy => ?_⟩
  · have hqi := hi i
    rw [hq, Option.map_some] at hqi
    obtain ⟨q', hq', hpq⟩ := Option.map_eq_some_iff.1 hqi
    exact ⟨q', hq', le_of_eq (congrArg (value ∘ Prod.snd) hpq).symm⟩
  · rw [sessionAt_eq_bind, hi i, ← sessionAt_eq_bind] at hy
    rw [hy]
    exact NonceStep.self y _

theorem NoncesStay.of_sameSrv : ∀ c c', SameSrv c c' → NoncesStay c c' :=
  fun _ _ h => NoncesStay.of_same (sessionsUsed.same_of_sameSrv h)

/-- The nonces look at the server only, not at the transmit buffer. -/
theorem NoncesStay.with_tx {c c₁ : Ctx} (h : NoncesStay c c₁) (tx : Bytes) : NoncesStay c { c₁ with tx := tx } :=
  trans_of NoncesStay h (NoncesStay.of_sameSrv c₁ { c₁ with tx := tx } rfl)

theorem NoncesStay.keeps_of_same {α : Type} {x : ServerM α} (h : Keeps sessionsUsed.Same x) : Keeps NoncesStay x :=
  Keeps.mono (fun _ _ => NoncesStay.of_same) h

theorem NoncesStay.keeps_of_sameSrv {α : Type} {x : ServerM α} (h : Keeps SameSrv x) : Keeps NoncesStay x :=
  Keeps.mono NoncesStay.of_sameSrv h

/-- A change to the peer at `i`, after a step from `c` that kept the nonces: it does not
lower the peer's biscuit number, and the session it leaves is as `hf` says. -/
theorem NoncesStay.updatePeer {c c₁ : Ctx} (h₁ : NoncesStay c c₁) {i : Nat} {f : Peer → Peer}
    (hbu : ∀ q, c₁.srv.peers[i]? = some q → value q.biscuitUsed ≤ value (f q).biscuitUsed)
    (hf : ∀ q y, c₁.srv.peers[i]? = some q → (f q).session = some y →
      NonceStep (sessionAt c.srv i) y 0 (Raised c.srv c₁.srv i)) (tx : Bytes) :
    NoncesStay c ⟨c₁.srv.updatePeer i f, tx⟩ := by
  have hgrow : UsedGrows c₁ ⟨c₁.srv.updatePeer i f, tx⟩ := by
    intro j q hq
    simp only [CryptoServer.getElem?_updatePeer]
    split
    · next hij =>
      subst hij
      exact ⟨f q, by rw [hq]; rfl, hbu q hq⟩
    · exact ⟨q, hq, le_rfl⟩
  have hraised : ∀ j, Raised c.srv c₁.srv j → Raised c.srv (c₁.srv.updatePeer i f) j :=
    fun j hr => lt_of_lt_of_le hr (hgrow.usedAt_le j)
  refine ⟨trans_of UsedGrows h₁.grows hgrow, fun j y hy => ?_⟩
  change sessionAt (c₁.srv.updatePeer i f) j = some y at hy
  rw [sessionAt_updatePeer] at hy
  split at hy
  · next hij =>
    subst hij
    cases hq : c₁.srv.peers[i]? with
    | none => simp [hq] at hy
    | some q =>
      rw [hq, Option.map_some, Option.bind_some] at hy
      exact (hf q y hq hy).mono (hraised i)
  · exact (h₁.sessions j y hy).mono (hraised j)

/-- A change to a peer that keeps its biscuit number and keeps or drops its session. -/
theorem NoncesStay.keeps_modify (peer : PeerPtr) {f : Peer → Peer} (hbu : ∀ q, (f q).biscuitUsed = q.biscuitUsed)
    (hf : ∀ q y, (f q).session = some y → q.session = some y) : Keeps NoncesStay (peer.modify f) :=
  Keeps.bind (NoncesStay.keeps_of_sameSrv (keeps_PeerPtr_get _)) fun _ c =>
    NoncesStay.updatePeer (refl_of NoncesStay c) (fun q _ => (congrArg value (hbu q)).ge) (fun q y hq hy => by
      rw [sessionAt, hq, Option.bind_some, hf q y hy]
      exact NonceStep.self y _) c.tx

/-- A computation that keeps the nonces, after a step that kept them. -/
theorem NoncesStay.wp_of_keeps {α : Type} {x : ServerM α} {c c₁ : Ctx} (h₁ : NoncesStay c c₁)
    (hx : Keeps NoncesStay x) : wp x (fun _ c' => NoncesStay c c') (fun _ c' => NoncesStay c c') c₁ :=
  Keeps.wp_of hx (fun _ _ h => trans_of NoncesStay h₁ h) fun _ _ h => trans_of NoncesStay h₁ h

theorem NoncesStay.keeps_SessionPtr_take (p : SessionPtr) : Keeps NoncesStay p.take :=
  Frame.takeSlot NoncesStay.of_sameSrv (NoncesStay.keeps_modify _ (fun _ => rfl) fun _ _ h => by cases h)
    fun _ => NoncesStay.keeps_of_same (keeps_unregisterSession sessionsUsed_handshakeBlind _)

/-- Going live: `p.insert ses`, after a step from `c`, of a session that has used no nonce
and that the code lets go live by then. -/
theorem NoncesStay.wp_SessionPtr_insert {c c₁ : Ctx} (h₁ : NoncesStay c c₁) (p : SessionPtr) {ses : Session}
    (h0 : ses.txnm = 0) (hlive : GoesLive ses (Raised c.srv c₁.srv p.val)) :
    wp (p.insert ses) (fun _ c₂ => NoncesStay c c₂ ∧ SameTx c₁ c₂) (fun _ c₂ => NoncesStay c c₂ ∧ SameTx c₁ c₂) c₁ := by
  have hdone : ∀ c₂, NoncesStay c₁ c₂ ∧ SameTx c₁ c₂ → NoncesStay c c₂ ∧ SameTx c₁ c₂ :=
    fun _ h => ⟨trans_of NoncesStay h₁ h.1, h.2⟩
  refine Keeps.wp_bind_of (R := fun a b => NoncesStay a b ∧ SameTx a b) ⟨refl_of _ c₁, refl_of _ c₁⟩
    (Keeps.and (NoncesStay.keeps_SessionPtr_take p) (sameTx_takeSlot _)) (fun _ c₂ h₂ => ?_) fun _ c₂ h₂ => hdone c₂ h₂
  refine Keeps.wp_bind_of h₂ (Keeps.and (NoncesStay.keeps_of_same (keeps_registerSession sessionsUsed_handshakeBlind _ _))
    (sameTx_registerSession _ _)) (fun _ c₃ h₃ => ?_) fun _ c₃ h₃ => hdone c₃ h₃
  rw [wp_PeerPtr_modify]
  split
  · -- the session put in place is the new one, and the number that let it go live stays raised
    refine ⟨NoncesStay.updatePeer (trans_of NoncesStay h₁ h₃.1) (fun _ _ => ?_) (fun q y _ hy => ?_) c₃.tx, h₃.2⟩
    · exact le_rfl
    · obtain rfl : ses = y := Option.some.inj hy
      exact .inr ⟨h0, hlive.imp_right fun hr => lt_of_lt_of_le hr (h₃.1.grows.usedAt_le _)⟩
  · exact hdone c₃ h₃

/-- `enter_live` starts the nonces at zero. -/
@[simp] theorem HandshakeState.txnm_enterLive (hs : HandshakeState) (now : Timing) (role : HandshakeRole) :
    (hs.enterLive P now role).txnm = 0 := by
  cases role <;> rfl

@[simp] theorem HandshakeState.handshakeRole_enterLive (hs : HandshakeState) (now : Timing) (role : HandshakeRole) :
    (hs.enterLive P now role).handshakeRole = role := by
  cases role <;> rfl

/-- Going live as the initiator. -/
theorem NoncesStay.keeps_SessionPtr_insert (p : SessionPtr) {ses : Session} (h0 : ses.txnm = 0)
    (hrole : ses.handshakeRole = .Initiator) : Keeps NoncesStay (p.insert ses) :=
  fun c => wp_state (wp_mono (NoncesStay.wp_SessionPtr_insert (refl_of NoncesStay c) p h0 (.inl hrole))
    (fun _ _ h => h.1) fun _ _ h => h.1)

theorem NoncesStay.keeps_handleRespHello (env : Env) (rx : Bytes) : Keeps NoncesStay (handleRespHello P env rx) :=
  Frame.handleRespHello NoncesStay.of_sameSrv
    (fun p hs now => NoncesStay.keeps_SessionPtr_insert p (hs.txnm_enterLive now _) (hs.handshakeRole_enterLive now _))
    (fun _ h => NoncesStay.keeps_of_same (keeps_PeerPtr_modify sessionsUsed_handshakeBlind fun q =>
      sessionsUsed_handshakeBlind.handshake q h)) env rx

/-- `handle_resp_conf` writes the reception nonce of the session it has read, and
nothing else of it. -/
theorem wp_handleRespConf_nonces (rx : Bytes) (c : Ctx) :
    wp (handleRespConf P rx) (fun _ c' => NoncesStay c c') (fun _ c' => NoncesStay c c') c := by
  have hc : NoncesStay c c := refl_of NoncesStay c
  simp only [handleRespConf, wp_bind, wp_getSrv, wp_liftE]
  split
  · split
    · simp only [wp_bind, wp_pure, wp_PeerPtr_get]
      split
      · next q hq =>
        simp only [wp_ensure]
        split_ifs
        · split
          · next s hs =>
            simp only [wp_bind, wp_pure, wp_ensure]
            split_ifs
            · simp only [wp_PeerPtr_modify, hq]
              refine NoncesStay.wp_of_keeps
                (NoncesStay.updatePeer hc (fun _ _ => ?_) (fun q' y hq' hy => ?_) c.tx) ?_
              · exact le_rfl
              · -- the peer read before is the one changed: its session with another reception nonce
                rw [← CryptoServer.peer_eq_ok, hq] at hq'
                cases hq'
                cases hy
                rw [sessionAt_of_peer hq, hs]
                exact .inl ⟨s, rfl, rfl, rfl, (UInt64.add_zero _).symm⟩
              · -- the tag is checked, then the handshake is dropped
                have htake : ∀ p : IniHsPtr, Keeps NoncesStay (p.take >>= fun _ => pure p.peer) := fun p =>
                  Keeps.bind (NoncesStay.keeps_of_same (keeps_IniHsPtr_take sessionsUsed_handshakeBlind p)) fun _ =>
                    NoncesStay.keeps_of_sameSrv (keeps_pure _)
                split
                · exact htake _
                · exact Keeps.bind (NoncesStay.keeps_of_sameSrv (keeps_bail _)) fun _ => htake _
            · exact hc
          · exact hc
        · exact hc
      · exact hc
    · exact hc
  · exact hc

/-- A peer's poll keeps its session or takes it. -/
theorem Peer.session_afterPoll (env : Env) (q : Peer) :
    (q.afterPoll env).session = q.session ∨ (q.afterPoll env).session = none := by
  have hp : (q.pruned env.now).session = q.session := by
    unfold Peer.pruned
    split <;> rfl
  unfold Peer.afterPoll
  split_ifs
  · exact .inr rfl
  all_goals exact .inl hp

/-- After the scan of the peers in poll order, a peer is the one before, or what its poll
left of it. -/
theorem getElem?_afterScan_peerOrder (env : Env) (srv : CryptoServer) {i : Nat} {q' : Peer}
    (h : (afterScan env srv.peerOrder srv.peers)[i]? = some q') :
    ∃ q, srv.peers[i]? = some q ∧ (q' = q ∨ q' = q.afterPoll env) := by
  by_cases hi : ∃ pq ∈ scanned env.now srv.peerOrder, pq.1.val = i
  · obtain ⟨pq, hpq, rfl⟩ := hi
    have hq := CryptoServer.peer_eq_ok.1 (CryptoServer.peer_of_mem_peerOrder ((scanned_sublist _).subset hpq))
    rw [getElem?_afterScan env (CryptoServer.nodup_peerOrder srv) hpq (List.getElem?_eq_some_iff.1 hq).1] at h
    exact ⟨pq.2, hq, .inr (Option.some.inj h).symm⟩
  · simp only [not_exists, not_and] at hi
    rw [afterScan, getElem?_foldl_afterPoll_of_not_mem env _ _ i hi] at h
    exact ⟨q', h, .inl rfl⟩

/-- `poll` takes sessions that die, changes no other and no biscuit number. -/
theorem noncesStay_poll (env : Env) (c : Ctx) : NoncesStay c ((poll env).run c).state := by
  refine ⟨UsedGrows.of_same (keeps_poll biscuitNumbers_handshakeBlind biscuitNumbers_sessionBlind env c), ?_⟩
  obtain ⟨c', hrun, hpeers, -, -, -⟩ := run_poll env c
  rw [hrun, Result.state_ok]
  intro i y hy
  rw [sessionAt] at hy
  cases hq' : c'.srv.peers[i]? with
  | none => simp [hq'] at hy
  | some q' =>
    rw [hq', Option.bind_some] at hy
    rw [hpeers] at hq'
    obtain ⟨q, hq, rfl | rfl⟩ := getElem?_afterScan_peerOrder env c.srv hq'
    · rw [sessionAt, hq, Option.bind_some, hy]
      exact NonceStep.self y _
    · rcases Peer.session_afterPoll env q with h | h
      · rw [sessionAt, hq, Option.bind_some, ← h, hy]
        exact NonceStep.self y _
      · rw [h] at hy
        cases hy

/-- A new peer has no session, and the others stay where they were. -/
theorem NoncesStay.keeps_addPeer (psk : Option Bytes) (pk : Bytes) : Keeps NoncesStay (addPeer P psk pk) := by
  refine Keeps.bind (NoncesStay.keeps_of_sameSrv keeps_getSrv) fun srv => ?_
  split
  · exact NoncesStay.keeps_of_sameSrv (keeps_bail _)
  · refine Keeps.bind (fun c => ⟨fun j q hq => ?_, fun i y hy => ?_⟩) fun _ => NoncesStay.keeps_of_sameSrv (keeps_pure _)
    · rw [run_modifySrv]
      exact ⟨q, List.getElem?_append_left (List.getElem?_eq_some_iff.1 hq).1 ▸ hq, le_rfl⟩
    · rw [run_modifySrv, Result.state_ok, sessionAt] at hy
      by_cases hi : i < c.srv.peers.length
      · rw [List.getElem?_append_left hi] at hy
        rw [sessionAt, hy]
        exact NonceStep.self y _
      · rw [List.getElem?_append_right (by omega)] at hy
        cases h : i - c.srv.peers.length <;> simp [h, Peer.new] at hy

/-! ## `handle_init_conf` -/

/-- The acknowledgement `m` went out on the session the peer at `peer` has after the step,
under that session's key and the nonce before its increment, which `m` carries; every other
session is as `NoncesStay` allows. -/
def AckedOn (P : Primitives) (c c' : Ctx) (peer : PeerPtr) (m : Bytes) : Prop :=
  ∃ y, sessionAt c'.srv peer.val = some y ∧ NonceStep (sessionAt c.srv peer.val) y 1 (Raised c.srv c'.srv peer.val) ∧
    (Envelope.field EmptyData.ctr).get m = bytes 8 (y.txnm - 1).toNat ∧
    (Envelope.field EmptyData.auth).get m = P.aeadEncrypt y.txkm (ackNonce (y.txnm - 1)) [] [] ∧
    ∀ i z, i ≠ peer.val → sessionAt c'.srv i = some z → NonceStep (sessionAt c.srv i) z 0 (Raised c.srv c'.srv i)

/-- Writing the session id, whatever its length, into a buffer long enough for an EmptyData
leaves it long enough. -/
theorem size_le_length_setSid {tx : Bytes} (s : Bytes) (hlen : Envelope.size EmptyData.size ≤ tx.length) :
    Envelope.size EmptyData.size ≤ ((Envelope.field EmptyData.sid).set s tx).length :=
  hlen.trans (Field.length_le_length_set _ (by simp [Envelope.field, EmptyData.sid, Envelope.size] at hlen ⊢; omega))

/-- The three fields of the acknowledgement leave the buffer long enough for an EmptyData. -/
theorem size_le_length_ack {tx s ctr a : Bytes} (hlen : Envelope.size EmptyData.size ≤ tx.length)
    (hctr : ctr.length = 8) (ha : a.length = TAG_LEN) :
    Envelope.size EmptyData.size ≤
      ((Envelope.field EmptyData.auth).set a ((Envelope.field EmptyData.ctr).set ctr
        ((Envelope.field EmptyData.sid).set s tx))).length := by
  have hsid := size_le_length_setSid s hlen
  have hc : (Envelope.field EmptyData.ctr).stop ≤ ((Envelope.field EmptyData.sid).set s tx).length :=
    le_trans (by decide) hsid
  rw [Field.length_set _ ha (by rw [Field.length_set _ hctr hc]; exact le_trans (by decide) hsid),
    Field.length_set _ hctr hc]
  exact hsid

/-- The acknowledgement itself: the counter written, then incremented, then the encryption
under the key and the counter before the increment. -/
theorem ackedOn_of_ack {c c₁ : Ctx} {peer : PeerPtr} {q₁ : Peer} {ses : Session} (h₁ : NoncesStay c c₁)
    (hq₁ : c₁.srv.peer peer.val = .ok q₁) (hses : q₁.session = some ses)
    (hlen : Envelope.size EmptyData.size ≤ c₁.tx.length) :
    AckedOn P c ⟨c₁.srv.updatePeer peer.val fun q => { q with session := some { ses with txnm := ses.txnm + 1 } },
      (Envelope.field EmptyData.auth).set (P.aeadEncrypt ses.txkm (bytes 8 ses.txnm.toNat ++ zeros 4) [] [])
        ((Envelope.field EmptyData.ctr).set (bytes 8 ses.txnm.toNat) ((Envelope.field EmptyData.sid).set ses.sidt c₁.tx))⟩
      peer ((Envelope.field EmptyData.auth).set (P.aeadEncrypt ses.txkm (bytes 8 ses.txnm.toNat ++ zeros 4) [] [])
        ((Envelope.field EmptyData.ctr).set (bytes 8 ses.txnm.toNat) ((Envelope.field EmptyData.sid).set ses.sidt c₁.tx))) := by
  have hpre : NonceStep (sessionAt c.srv peer.val) ses 0 (Raised c.srv c₁.srv peer.val) :=
    h₁.sessions _ _ (by rw [sessionAt_of_peer hq₁, hses])
  -- the acknowledgement raises no biscuit number
  have hraised : ∀ j, Raised c.srv (c₁.srv.updatePeer peer.val fun q =>
      { q with session := some { ses with txnm := ses.txnm + 1 } }) j = Raised c.srv c₁.srv j := fun j => by
    rw [Raised, Raised, usedAt_updatePeer]
    exact fun _ => rfl
  have hsub : ses.txnm + 1 - 1 = ses.txnm := by simp
  -- the three fields fit in the buffer, whatever the length of the session id written first
  have hsid := size_le_length_setSid ses.sidt hlen
  have hctr : (Envelope.field EmptyData.ctr).stop ≤ ((Envelope.field EmptyData.sid).set ses.sidt c₁.tx).length :=
    le_trans (by decide) hsid
  have hauth : (Envelope.field EmptyData.auth).stop ≤
      ((Envelope.field EmptyData.ctr).set (bytes 8 ses.txnm.toNat) ((Envelope.field EmptyData.sid).set ses.sidt c₁.tx)).length := by
    rw [Field.length_set _ (by simp [Envelope.field, EmptyData.ctr]) hctr]
    exact le_trans (by decide) hsid
  refine ⟨{ ses with txnm := ses.txnm + 1 }, ?_, ?_, ?_, ?_, fun i z hi hz => ?_⟩
  · rw [sessionAt_updatePeer, if_pos rfl, CryptoServer.peer_eq_ok.1 hq₁]
    simp
  · -- one nonce more than the session had, or than a new one has
    rw [hraised]
    rcases hpre with ⟨x, hx, hkey, hrole, hnm⟩ | ⟨h0, hlive⟩
    · exact .inl ⟨x, hx, hkey, hrole, by simp [hnm]⟩
    · exact .inr ⟨by simp [h0], hlive⟩
  · rw [hsub]
    rw [Field.get_set_of_disjoint (by decide) (by simp [Envelope.field, EmptyData.auth]) hauth,
      Field.get_set_self _ (by simp [Envelope.field, EmptyData.ctr]) hctr]
  · rw [hsub, Field.get_set_self _ (by simp [Envelope.field, EmptyData.auth]) hauth]
    rfl
  · rw [sessionAt_updatePeer, if_neg (Ne.symm hi)] at hz
    rw [hraised]
    exact h₁.sessions i z hz

/-- ICR5 to the acknowledgement: `handle_init_conf` acknowledges on the session its peer has
by then, under the session's key and the nonce before the increment; when it fails it has
used no nonce. A session it puts in place goes live on a biscuit whose number ICR5 found
above the peer's last, and ICR6 raises the peer's number to it first. -/
theorem wp_handleInitConf_ack (env : Env) (rx : Bytes) (c : Ctx) (hlen : Envelope.size EmptyData.size ≤ c.tx.length) :
    wp (handleInitConf P env rx)
      (fun peer c' => AckedOn P c c' peer c'.tx ∧ Envelope.size EmptyData.size ≤ c'.tx.length)
      (fun _ c' => NoncesStay c c') c := by
  have hc : NoncesStay c c := refl_of NoncesStay c
  simp only [handleInitConf, wp_bind, wp_getSrv, wp_liftE]
  split
  · next r hload =>
    obtain ⟨peer, no, core⟩ := r
    dsimp only
    split
    · simp only [wp_PeerPtr_get]
      split
      · next q hq =>
        split
        · exact hc
        · next cmp hcmp =>
          rw [wp_ite]
          split_ifs with hpos
          · -- ICR6: the biscuit is newer than the peer's last, and the peer takes its number
            have hlt : value q.biscuitUsed < value no := ConstantTime.value_lt_of_compare hcmp hpos
            have hq' : c.srv.peers[peer.val]? = some q := CryptoServer.peer_eq_ok.1 hq
            rw [wp_bind, wp_PeerPtr_modify, hq]
            dsimp only
            have h₁ := NoncesStay.updatePeer (i := peer.val) (f := fun q => { q with biscuitUsed := no }) hc
              (fun q₀ hq₀ => by rw [hq'] at hq₀; cases hq₀; exact hlt.le)
              (fun q₀ y hq₀ hy => by
                rw [sessionAt, hq₀, Option.bind_some, show q₀.session = some y from hy]
                exact NonceStep.self y _) c.tx
            have hraised : Raised c.srv (c.srv.updatePeer peer.val fun q => { q with biscuitUsed := no }) peer.val := by
              rw [Raised, usedAt_of_getElem? hq', usedAt_of_getElem? (q := { q with biscuitUsed := no })
                (by simp [CryptoServer.getElem?_updatePeer, hq'])]
              exact hlt
            -- ICR7: the responder goes live on it, and drops any handshake of its own
            refine wp_bind_of (wp_mono (NoncesStay.wp_SessionPtr_insert h₁ _ (HandshakeState.txnm_enterLive _ _ _)
              (.inr hraised)) (fun _ _ h => h) fun _ _ h => h.1) fun _ c₂ h₂ => ?_
            refine Keeps.wp_bind_of (R := fun a b => NoncesStay a b ∧ SameTx a b) h₂
              (Keeps.and (NoncesStay.keeps_of_same (keeps_IniHsPtr_take sessionsUsed_handshakeBlind _))
                (sameTx_takeSlot _)) (fun _ c₃ h₃ => ?_) fun _ _ h => h.1
            simp only [wp_bind, wp_PeerPtr_get]
            split
            · next q₃ hq₃ =>
              split
              · next ses hses =>
                simp only [wp_bind, wp_pure, wp_writePayload, wp_PeerPtr_modify, hq₃]
                have hlen₃ : Envelope.size EmptyData.size ≤ c₃.tx.length := by rw [h₃.2]; exact hlen
                exact ⟨ackedOn_of_ack h₃.1 hq₃ hses hlen₃, size_le_length_ack hlen₃ (length_bytes _ _) (by simp)⟩
              · exact h₃.1
            · exact h₃.1
          · -- a biscuit that is not newer: the acknowledgement only
            simp only [wp_bind, wp_PeerPtr_get, hq]
            split
            · next ses hses =>
              simp only [wp_bind, wp_pure, wp_writePayload, wp_PeerPtr_modify, hq]
              exact ⟨ackedOn_of_ack hc hq hses hlen, size_le_length_ack hlen (length_bytes _ _) (by simp)⟩
            · exact hc
      · exact hc
    · exact hc
  · exact hc

/-! ## A step and its acknowledgement -/

/-- The acknowledgement a step sends: when it answers with an EmptyData, the peer the
exchange was with and the message. -/
def ackOf (c : Ctx) : Outcome → Option (PeerPtr × Bytes)
  | .msg r => match r.exchangedWith, Outcome.sent c.tx (.msg r) with
    | some peer, some m => if m.headD 0 = MsgType.EmptyData.toU8 then some (peer, m) else none
    | _, _ => none
  | _ => none

/-- The acknowledgement of a run of an operation; one that fails sends nothing. -/
def stepAck : Result Fault Ctx Outcome → Option (PeerPtr × Bytes)
  | .ok o c => ackOf c o
  | .error _ _ => none

/-- What a step does to the nonces: it uses none, or sends one acknowledgement as `AckedOn`
says. -/
def AckStep (P : Primitives) (c c' : Ctx) : Option (PeerPtr × Bytes) → Prop
  | none => NoncesStay c c'
  | some (peer, m) => AckedOn P c c' peer m

theorem ackOf_of_headD {c : Ctx} {r : HandleMsgResult}
    (h : ∀ m, Outcome.sent c.tx (.msg r) = some m → m.headD 0 ≠ MsgType.EmptyData.toU8) : ackOf c (.msg r) = none := by
  cases he : r.exchangedWith <;> cases hs : Outcome.sent c.tx (.msg r) <;> simp only [ackOf, he, hs]
  exact if_neg (h _ hs)

theorem NoncesStay.of_peers {c c' : Ctx} (h : c'.srv.peers = c.srv.peers) : NoncesStay c c' :=
  NoncesStay.of_same ⟨by rw [h], rfl⟩

/-- An acknowledgement read off another buffer with the same fields, from the same server. -/
theorem AckedOn.of_fields {c c₁ c₂ : Ctx} {peer : PeerPtr} {m m' : Bytes} (h : AckedOn P c c₁ peer m)
    (hsrv : c₂.srv = c₁.srv) (hctr : (Envelope.field EmptyData.ctr).get m' = (Envelope.field EmptyData.ctr).get m)
    (hauth : (Envelope.field EmptyData.auth).get m' = (Envelope.field EmptyData.auth).get m) : AckedOn P c c₂ peer m' := by
  obtain ⟨y, hy, hstep, hc, ha, hrest⟩ := h
  unfold AckedOn
  rw [hsrv]
  exact ⟨y, hy, hstep, hctr.trans hc, hauth.trans ha, hrest⟩

/-- **`handle_msg` sends at most one acknowledgement.** An InitConf is answered with an
EmptyData sealed under the peer's session as `AckedOn` says; every other message, and
every failure, uses no nonce. -/
theorem wp_handleMsg_ackStep (env : Env) (rx : Bytes) (c : Ctx) :
    wp (handleMsg P env rx) (fun res c' => AckStep P c c' (ackOf c' (.msg res))) (fun _ c' => NoncesStay c c') c := by
  have hc : NoncesStay c c := refl_of NoncesStay c
  by_cases hrx : rx.headD 0 = MsgType.InitHello.toU8
  · -- an InitHello is answered with a RespHello, by the responder, which holds no state
    exact wp_handleMsg_initHello hrx (fun _ => hc) fun c' hstep _ _ => NoncesStay.of_peers hstep.peers
  simp only [handleMsg, wp_bind, wp_ensure, wp_getSrv]
  split_ifs
  · split
    · next ht => exact absurd (MsgType.toU8_of_tryFrom ht).symm hrx
    · -- a RespHello is answered with an InitConf
      simp only [wp_bind, wp_refNew, wp_ensure, wp_truncatingCastInto]
      split_ifs
      · refine Keeps.wp_of (NoncesStay.keeps_handleRespHello env rx) (fun peer c₁ h₁ => ?_) fun _ _ h₁ => h₁
        apply wp_sealAndCommitMsg fun _ tx' _ => h₁.with_tx tx'
        intro tx' hty _
        have h₂ := h₁.with_tx tx'
        simp only [wp_getCtx]
        refine Keeps.wp_of (Keeps.and (NoncesStay.keeps_of_same (keeps_storeMsgForRetransmission sessionsUsed_handshakeBlind env peer.hs _))
          (sameTx_storeMsgForRetransmission env peer.hs _)) (fun _ c₃ h₃ => ?_) fun _ _ h₃ => trans_of NoncesStay h₂ h₃.1
        simp only [wp_pure]
        rw [ackOf_of_headD fun m hm => by rw [headD_sent hm, h₃.2, hty]; decide]
        exact trans_of NoncesStay h₂ h₃.1
      all_goals exact hc
    · -- an InitConf is answered with an EmptyData, the acknowledgement
      simp only [wp_bind, wp_refNew, wp_ensure, wp_truncatingCastInto]
      split_ifs with _ _ hlen
      · refine wp_mono (wp_handleInitConf_ack env rx c hlen) (fun peer c₁ h₁ => ?_) fun _ _ h => h
        obtain ⟨hack, hlen₁⟩ := h₁
        apply wp_sealAndCommitMsg
        · intro e tx' he
          obtain ⟨y, hy, -⟩ := hack
          rw [sessionAt] at hy
          cases hq : c₁.srv.peers[peer.val]? with
          | none => simp [hq] at hy
          | some q => rw [CryptoServer.peer_eq_ok.2 hq] at he; cases he
        intro tx' hty hsealed
        have hsize : Envelope.size EmptyData.size ≠ 0 := by decide
        simp only [wp_pure, hsize, if_true, if_false]
        have hsent : ackOf { c₁ with tx := tx' } (.msg ⟨some peer, some (Envelope.size EmptyData.size)⟩) =
            some (peer, tx'.take (Envelope.size EmptyData.size)) := by
          simp only [ackOf, Outcome.sent, Option.map_some, List.headD_take (Nat.pos_of_ne_zero hsize), hty, if_true]
        rw [hsent]
        -- sealing wrote the type, the mac and the cookie, none of the acknowledgement's fields
        have hf := (hsealed hlen₁).2.2
        exact hack.of_fields rfl (by rw [Field.get_take _ (by decide), hf EmptyData.ctr (by decide)])
          (by rw [Field.get_take _ (by decide), hf EmptyData.auth (by decide)])
      all_goals exact hc
    · -- an EmptyData ends the handshake; it has no answer
      simp only [wp_bind, wp_refNew, wp_ensure]
      split_ifs
      · refine wp_mono (wp_handleRespConf_nonces rx c) (fun _ c₁ h₁ => ?_) fun _ _ h => h
        simp only [wp_pure]
        exact h₁
      all_goals exact hc
    · exact hc
    · -- a CookieReply has no answer
      simp only [wp_bind, wp_refNew]
      split_ifs
      · refine Keeps.wp_of (NoncesStay.keeps_of_same (keeps_handleCookieReply sessionsUsed_handshakeBlind env rx))
          (fun _ c₁ h₁ => ?_) fun _ _ h₁ => h₁
        simp only [wp_pure]
        exact h₁
      · exact hc
    · exact hc
  · exact hc

theorem sessionAt_congr {srv srv' : CryptoServer} (h : srv'.peers = srv.peers) (i : Nat) :
    sessionAt srv' i = sessionAt srv i := by
  rw [sessionAt, sessionAt, h]

theorem usedAt_congr {srv srv' : CryptoServer} (h : srv'.peers = srv.peers) (i : Nat) :
    usedAt srv' i = usedAt srv i := by
  rw [usedAt, usedAt, h]

/-- What a step did to the nonces, against a state with the same peers as the one it began in. -/
theorem AckStep.of_peers {c₀ c c' : Ctx} {a : Option (PeerPtr × Bytes)} (hpeers : c₀.srv.peers = c.srv.peers)
    (h : AckStep P c₀ c' a) : AckStep P c c' a := by
  have hs : sessionAt c₀.srv = sessionAt c.srv := funext (sessionAt_congr hpeers)
  have hr : Raised c₀.srv = Raised c.srv := by
    funext srv' i
    rw [Raised, Raised, usedAt_congr hpeers]
  rcases a with _ | ⟨peer, m⟩
  · exact ⟨fun i q hq => h.grows i q (hpeers ▸ hq), by simpa only [hs, hr] using h.sessions⟩
  · simpa only [AckStep, AckedOn, hs, hr] using h

/-- Under load an InitConf goes to `handle_msg`, and so does an InitHello with a valid
cookie; an InitHello without one is answered with a CookieReply, from no session. -/
theorem wp_handleMsgUnderLoad_ackStep (env : Env) (rx host : Bytes) (c : Ctx) :
    wp (handleMsgUnderLoad P env rx host) (fun res c' => AckStep P c c' (ackOf c' (.msg res)))
      (fun _ c' => NoncesStay c c') c := by
  refine wp_handleMsgUnderLoad (S := fun c₁ => c₁.srv.peers = c.srv.peers) rfl (fun _ _ => rfl)
    (fun c₁ h₁ _ => ?_) (fun _ _ _ h₁ _ => NoncesStay.of_peers h₁) fun _ _ _ h₁ => NoncesStay.of_peers h₁
  exact wp_mono (wp_handleMsg_ackStep env rx c₁) (fun _ _ h => h.of_peers h₁)
    fun _ _ h => trans_of NoncesStay (NoncesStay.of_peers h₁) h

/-- An operation that does not answer a message keeps the nonces. -/
theorem wp_noAck {β : Type} {f : β → Outcome} {x : ServerM β} {c : Ctx} (hf : ∀ b r, f b ≠ .msg r)
    (hx : Keeps NoncesStay x) :
    wp (f <$> x) (fun o c' => AckStep P c c' (ackOf c' o)) (fun _ c' => AckStep P c c' none) c := by
  rw [wp_map]
  refine Keeps.wp_of hx (fun b c' h => ?_) fun _ _ h => h
  cases hb : f b with
  | msg r => exact absurd hb (hf b r)
  | _ => exact h

/-- **Every operation sends at most one acknowledgement**, as `AckStep` says of the
acknowledgement `stepAck` reads off its run. -/
theorem exec_ackStep (op : Op) (env : Env) (c : Ctx) :
    AckStep P c ((op.exec P env).run c).state (stepAck ((op.exec P env).run c)) := by
  apply wp_result (R := fun r => AckStep P c r.state (stepAck r))
  cases op with
  | handleMsg rx =>
    rw [Op.exec, wp_map]
    exact wp_handleMsg_ackStep env rx c
  | handleMsgUnderLoad rx host =>
    rw [Op.exec, wp_map]
    exact wp_handleMsgUnderLoad_ackStep env rx host c
  | addPeer psk pk => exact wp_noAck (fun _ _ h => Outcome.noConfusion h) (NoncesStay.keeps_addPeer psk pk)
  | initiateHandshake peer =>
    exact wp_noAck (fun _ _ h => Outcome.noConfusion h) (NoncesStay.keeps_of_same (keeps_initiateHandshake sessionsUsed_handshakeBlind env peer))
  | poll => exact wp_noAck (fun _ _ h => Outcome.noConfusion h) (noncesStay_poll env)
  | retransmitHandshake peer =>
    exact wp_noAck (fun _ _ h => Outcome.noConfusion h) (NoncesStay.keeps_of_sameSrv (keeps_retransmitHandshake peer))


/-! ## The ledger of acknowledgements -/

/-- The keys of the sessions of `srv`. -/
def sessionKeys (srv : CryptoServer) : List Bytes := srv.peers.filterMap fun q => q.session.map (·.txkm)

theorem mem_sessionKeys {srv : CryptoServer} {i : Nat} {y : Session} (h : sessionAt srv i = some y) :
    y.txkm ∈ sessionKeys srv := by
  obtain ⟨q, hq, hy⟩ := Option.bind_eq_some_iff.1 h
  exact List.mem_filterMap.2 ⟨q, List.mem_of_getElem? hq, by rw [hy, Option.map_some]⟩

/-- The key and nonce of the acknowledgement sent, as the session of its peer after the
step holds them. -/
def ackRecord (c' : Ctx) : Option (PeerPtr × Bytes) → List (Bytes × Bytes)
  | some (peer, _) => ((sessionAt c'.srv peer.val).map fun y => (y.txkm, ackNonce (y.txnm - 1))).toList
  | none => []

/-- The number of acknowledgements a step sent under the session of the peer at `i`. -/
def ackedAt : Option PeerPtr → Nat → UInt64
  | some peer, i => if peer.val = i then 1 else 0
  | none, _ => 0

/-- **Session keys are fresh.** A session after the step that does not carry on its peer's
session with the nonces the step sent under it, and that the code let go live (an
initiator's, or a responder's whose peer's biscuit number the step raised), has a key no
session of the run had before (`keys`), and no other session has it after. Its keys are
derived from the secrets of a handshake that has not gone live before: the initiator's own,
or the one a biscuit carries that no session was made from, since its number is above the
peer's last. The code does not check this; the key derivation gives it. A responder's
session made again from a biscuit its peer has used is not covered: ICR5 rules it out. -/
def FreshKeys (keys : List Bytes) (srv srv' : CryptoServer) (acked : Option PeerPtr) : Prop :=
  ∀ i y, sessionAt srv' i = some y → ¬ Continues (sessionAt srv i) y (ackedAt acked i) →
    GoesLive y (Raised srv srv' i) → y.txkm ∉ keys ∧ ∀ j z, sessionAt srv' j = some z → z.txkm = y.txkm → j = i

/-- A session after the step that does not carry on its peer's is a new one that the code let
go live, so `FreshKeys` speaks of it. -/
theorem FreshKeys.of_new {keys : List Bytes} {srv srv' : CryptoServer} {acked : Option PeerPtr}
    (hfresh : FreshKeys keys srv srv' acked) {i : Nat} {y : Session} (hy : sessionAt srv' i = some y)
    (hstep : NonceStep (sessionAt srv i) y (ackedAt acked i) (Raised srv srv' i))
    (hc : ¬ Continues (sessionAt srv i) y (ackedAt acked i)) :
    y.txnm = ackedAt acked i ∧ y.txkm ∉ keys ∧ ∀ j z, sessionAt srv' j = some z → z.txkm = y.txkm → j = i :=
  have hnew := hstep.resolve_left hc
  ⟨hnew.1, hfresh i y hy hc hnew.2⟩

theorem AckStep.nonceStep {c c' : Ctx} {a : Option (PeerPtr × Bytes)} (h : AckStep P c c' a) (i : Nat) (y : Session)
    (hy : sessionAt c'.srv i = some y) :
    NonceStep (sessionAt c.srv i) y (ackedAt (a.map Prod.fst) i) (Raised c.srv c'.srv i) := by
  rcases a with _ | ⟨peer, m⟩
  · exact h.sessions i y hy
  · obtain ⟨y₀, hy₀, hstep, -, -, hrest⟩ := h
    by_cases hi : peer.val = i
    · subst hi
      obtain rfl : y₀ = y := Option.some.inj (hy₀.symm.trans hy)
      simpa [ackedAt] using hstep
    · simpa [ackedAt, hi] using hrest i y (Ne.symm hi) hy

/-- A run of the server with the keys its sessions have had and the key and nonce of every
acknowledgement it has sent, oldest first. -/
structure AckLedger where
  w : World
  keys : List Bytes
  acks : List (Bytes × Bytes)

/-- A step of the server, in which the sessions the code lets go live have fresh keys, that
records its sessions' keys and the acknowledgement it sends. -/
def AckLedger.Step (P : Primitives) (L L' : AckLedger) : Prop :=
  ∃ (op : Op) (env : Env) (tx : Bytes),
    L.w.now ≤ env.now ∧
    (∀ e c, (op.exec P env).run ⟨L.w.srv, tx⟩ ≠ .error (.panic e) c) ∧
    FreshKeys L.keys L.w.srv ((op.exec P env).run ⟨L.w.srv, tx⟩).state.srv
      ((stepAck ((op.exec P env).run ⟨L.w.srv, tx⟩)).map Prod.fst) ∧
    L' = ⟨⟨((op.exec P env).run ⟨L.w.srv, tx⟩).state.srv, env.now⟩,
      L.keys ++ sessionKeys ((op.exec P env).run ⟨L.w.srv, tx⟩).state.srv,
      L.acks ++ ackRecord ((op.exec P env).run ⟨L.w.srv, tx⟩).state (stepAck ((op.exec P env).run ⟨L.w.srv, tx⟩))⟩

def ackLedgerSpec (P : Primitives) : System.Spec AckLedger where
  init L := (serverSpec P).init L.w ∧ L.keys = [] ∧ L.acks = []
  next := AckLedger.Step P

/-- The acknowledgements under the key `K` carry the nonces `0, 1, …, m - 1`, in order. -/
def AcksUnder (acks : List (Bytes × Bytes)) (K : Bytes) (m : Nat) : Prop :=
  Log.Counts acks K (fun j => ackNonce (UInt64.ofNat j)) m

/-- The nonce of the `j`th acknowledgement under a key: distinct below `2^64`. -/
theorem ackNonce_ofNat_inj {i j : Nat} (hi : i < 2 ^ 64) (hj : j < 2 ^ 64)
    (h : ackNonce (UInt64.ofNat i) = ackNonce (UInt64.ofNat j)) : i = j := by
  have hb := congrArg (fun b => value (b.take 8)) h
  simp only [ackNonce, List.take_left' (length_bytes 8 _), value_bytes, UInt64.toNat_ofNat'] at hb
  omega

/-- The ledger is counted: every session's key is recorded, the acknowledgements under
each key carry the nonces in order, none under a key no session had, each session's
`txnm` is the number sent under its key, and no two peers' sessions share a key. -/
structure AcksCounted (L : AckLedger) : Prop where
  keyed : ∀ i y, sessionAt L.w.srv i = some y → y.txkm ∈ L.keys
  ordered : ∀ K, ∃ m, AcksUnder L.acks K m ∧ (K ∉ L.keys → m = 0)
  current : ∀ i y, sessionAt L.w.srv i = some y → ∃ m, AcksUnder L.acks y.txkm m ∧ y.txnm = UInt64.ofNat m
  distinct : ∀ i j y z, sessionAt L.w.srv i = some y → sessionAt L.w.srv j = some z → z.txkm = y.txkm → j = i

theorem acksCounted_init {L : AckLedger} (h : (ackLedgerSpec P).init L) : AcksCounted L := by
  obtain ⟨⟨coins, sk, pk, hw⟩, hk, ha⟩ := h
  have hnone : ∀ i, sessionAt L.w.srv i = none := fun i => by rw [hw]; rfl
  refine ⟨fun i y hy => ?_, fun K => ⟨0, by rw [ha]; rfl, fun _ => rfl⟩, fun i y hy => ?_, fun i j y z hy => ?_⟩ <;>
    simp [hnone] at hy

section Step

variable {L : AckLedger} {srv' : CryptoServer} {acked : Option PeerPtr}

/-- A session after a step, against the ledger before it: the acknowledgements under its
key so far, and its nonce that many more the step's own. -/
theorem AcksCounted.carried (hL : AcksCounted L) (hfresh : FreshKeys L.keys L.w.srv srv' acked) {i : Nat}
    {y : Session} (hy : sessionAt srv' i = some y)
    (hstep : NonceStep (sessionAt L.w.srv i) y (ackedAt acked i) (Raised L.w.srv srv' i)) :
    ∃ m, AcksUnder L.acks y.txkm m ∧ y.txnm = UInt64.ofNat m + ackedAt acked i := by
  by_cases hc : Continues (sessionAt L.w.srv i) y (ackedAt acked i)
  · -- the session carries on one the ledger counted
    obtain ⟨x, hx, hkey, -, hn⟩ := hc
    obtain ⟨m, hm, hxn⟩ := hL.current i x hx
    exact ⟨m, hkey ▸ hm, by rw [hn, hxn]⟩
  · -- a new session, under a key nothing was sent under
    obtain ⟨hn, hkey, -⟩ := hfresh.of_new hy hstep hc
    obtain ⟨m, hm, h0⟩ := hL.ordered y.txkm
    rw [h0 hkey] at hm
    exact ⟨0, hm, by rw [hn, show UInt64.ofNat 0 = 0 from rfl, UInt64.zero_add]⟩

theorem AcksCounted.distinct_after (hL : AcksCounted L) (hfresh : FreshKeys L.keys L.w.srv srv' acked)
    (hstep : ∀ i y, sessionAt srv' i = some y → NonceStep (sessionAt L.w.srv i) y (ackedAt acked i) (Raised L.w.srv srv' i)) :
    ∀ i j y z, sessionAt srv' i = some y → sessionAt srv' j = some z → z.txkm = y.txkm → j = i := by
  intro i j y z hy hz hyz
  by_cases hci : Continues (sessionAt L.w.srv i) y (ackedAt acked i)
  · by_cases hcj : Continues (sessionAt L.w.srv j) z (ackedAt acked j)
    · -- both carry on sessions before the step, which had distinct keys
      obtain ⟨x, hx, hkx, -⟩ := hci
      obtain ⟨x', hx', hkx', -⟩ := hcj
      exact hL.distinct i j x x' hx hx' (by rw [hkx, hkx', hyz])
    · exact ((hfresh.of_new hz (hstep j z hz) hcj).2.2 i y hy hyz.symm).symm
  · exact (hfresh.of_new hy (hstep i y hy) hci).2.2 j z hz hyz

/-- A step that sent no acknowledgement keeps the ledger counted. -/
theorem AcksCounted.step_none (hL : AcksCounted L) (hfresh : FreshKeys L.keys L.w.srv srv' none)
    (hstay : ∀ i y, sessionAt srv' i = some y → NonceStep (sessionAt L.w.srv i) y (ackedAt none i) (Raised L.w.srv srv' i))
    (now : Timing) : AcksCounted ⟨⟨srv', now⟩, L.keys ++ sessionKeys srv', L.acks⟩ := by
  refine ⟨fun i y hy => List.mem_append_right _ (mem_sessionKeys hy), fun K => ?_, fun i y hy => ?_,
    hL.distinct_after hfresh hstay⟩
  · obtain ⟨m, hm, h0⟩ := hL.ordered K
    exact ⟨m, hm, fun hK => h0 fun hk => hK (List.mem_append_left _ hk)⟩
  · obtain ⟨m, hm, hn⟩ := hL.carried hfresh hy (hstay i y hy)
    exact ⟨m, hm, by rw [hn, ackedAt, UInt64.add_zero]⟩

/-- A step that sent one acknowledgement, from the peer at `p`, records it under the key of
that peer's session, with the nonce counted there. -/
theorem AcksCounted.step_some (hL : AcksCounted L) {p : PeerPtr} (hfresh : FreshKeys L.keys L.w.srv srv' (some p))
    (hstep : ∀ i y, sessionAt srv' i = some y →
      NonceStep (sessionAt L.w.srv i) y (ackedAt (some p) i) (Raised L.w.srv srv' i))
    {y₀ : Session} (hy₀ : sessionAt srv' p.val = some y₀) (now : Timing) :
    AcksCounted ⟨⟨srv', now⟩, L.keys ++ sessionKeys srv', L.acks ++ [(y₀.txkm, ackNonce (y₀.txnm - 1))]⟩ := by
  have hdist := hL.distinct_after hfresh hstep
  obtain ⟨m₀, hm₀, hn₀⟩ := hL.carried hfresh hy₀ (hstep _ _ hy₀)
  rw [ackedAt, if_pos rfl] at hn₀
  -- the acknowledgement went out under the next nonce of its session's key
  have hrec : ackNonce (y₀.txnm - 1) = ackNonce (UInt64.ofNat m₀) := by rw [hn₀, UInt64.add_sub_cancel]
  have hnext : AcksUnder (L.acks ++ [(y₀.txkm, ackNonce (y₀.txnm - 1))]) y₀.txkm (m₀ + 1) := by
    rw [hrec]
    exact Log.Counts.append_next hm₀
  refine ⟨fun i y hy => List.mem_append_right _ (mem_sessionKeys hy), fun K => ?_, fun i y hy => ?_, hdist⟩
  · by_cases hK : y₀.txkm = K
    · subst hK
      exact ⟨m₀ + 1, hnext, fun hK => absurd (List.mem_append_right _ (mem_sessionKeys hy₀)) hK⟩
    · obtain ⟨m, hm, h0⟩ := hL.ordered K
      exact ⟨m, Log.Counts.append_of_ne hm hK, fun hK => h0 fun hk => hK (List.mem_append_left _ hk)⟩
  · by_cases hi : p.val = i
    · subst hi
      rw [hy₀] at hy
      cases hy
      exact ⟨m₀ + 1, hnext, by rw [hn₀, UInt64.ofNat_add, UInt64.ofNat_one]⟩
    · -- another peer's session: its key is not the acknowledged one
      have hne : y₀.txkm ≠ y.txkm := fun he => hi (hdist i p.val y y₀ hy hy₀ he)
      obtain ⟨m, hm, hn⟩ := hL.carried hfresh hy (hstep i y hy)
      exact ⟨m, Log.Counts.append_of_ne hm hne, by rw [hn, ackedAt, if_neg hi, UInt64.add_zero]⟩

end Step

/-- Every step of the ledger keeps it counted. -/
theorem AcksCounted.step {L L' : AckLedger} (hL : AcksCounted L) (h : AckLedger.Step P L L') : AcksCounted L' := by
  obtain ⟨op, env, tx, -, -, hfresh, rfl⟩ := h
  have hack := exec_ackStep (P := P) op env ⟨L.w.srv, tx⟩
  generalize (op.exec P env).run ⟨L.w.srv, tx⟩ = r at hack hfresh
  have hstep := hack.nonceStep
  cases ha : stepAck r with
  | none =>
    rw [ha] at hstep hfresh
    rw [ackRecord, List.append_nil]
    exact hL.step_none hfresh hstep env.now
  | some a =>
    obtain ⟨p, m⟩ := a
    rw [ha] at hack hstep hfresh
    obtain ⟨y₀, hy₀, -⟩ := hack
    have hrec : ackRecord r.state (some (p, m)) = [(y₀.txkm, ackNonce (y₀.txnm - 1))] := by
      rw [ackRecord, hy₀, Option.map_some, Option.toList_some]
    rw [hrec]
    exact hL.step_some hfresh hstep hy₀ env.now

theorem acksCounted_invariant : System.Invariant (ackLedgerSpec P) AcksCounted :=
  System.invariant_of_inductive (fun _ => acksCounted_init) (fun _ _ hL h => hL.step h) fun _ h => h


/-- The record of a step is the key and nonce its acknowledgement was sealed under: the
message's tag is the AEAD under them, and its counter field is the nonce's first eight
bytes. -/
theorem ackRecord_sealed (op : Op) (env : Env) (c : Ctx) {peer : PeerPtr} {m : Bytes}
    (h : stepAck ((op.exec P env).run c) = some (peer, m)) :
    ∃ K N, ackRecord ((op.exec P env).run c).state (some (peer, m)) = [(K, N)] ∧
      (Envelope.field EmptyData.auth).get m = P.aeadEncrypt K N [] [] ∧
      (Envelope.field EmptyData.ctr).get m = N.take 8 := by
  have hack := exec_ackStep (P := P) op env c
  rw [h] at hack
  obtain ⟨y, hy, -, hctr, hauth, -⟩ := hack
  refine ⟨y.txkm, ackNonce (y.txnm - 1), by rw [ackRecord, hy, Option.map_some, Option.toList_some], hauth, ?_⟩
  rw [hctr, ackNonce, List.take_left' (length_bytes 8 _)]

/-- **Acknowledgement nonces never repeat.** Over every run in which the sessions the code
lets go live have fresh keys, the acknowledgements sent under each key carry the nonces `0, 1, 2, …` in the order they
go out, each session's `txnm` is the number sent under its key, and while no key has had
`2^64` of them no key and nonce go out twice. Each record is the key and nonce the
acknowledgement's tag was sealed under. -/
theorem ack_nonces_unique :
    System.Invariant (ackLedgerSpec P) (fun L =>
      (∀ K, ∃ m, AcksUnder L.acks K m) ∧
      (∀ i y, sessionAt L.w.srv i = some y → ∃ m, AcksUnder L.acks y.txkm m ∧ y.txnm = UInt64.ofNat m) ∧
      ((∀ K, (Log.under L.acks K).length ≤ 2 ^ 64) → L.acks.Nodup)) ∧
    (∀ (op : Op) (env : Env) (c : Ctx) (peer : PeerPtr) (m : Bytes), stepAck ((op.exec P env).run c) = some (peer, m) →
      ∃ K N, ackRecord ((op.exec P env).run c).state (some (peer, m)) = [(K, N)] ∧
        (Envelope.field EmptyData.auth).get m = P.aeadEncrypt K N [] [] ∧
        (Envelope.field EmptyData.ctr).get m = N.take 8) := by
  refine ⟨fun L hL => ?_, fun op env c _ _ h => ackRecord_sealed op env c h⟩
  have hc := acksCounted_invariant L hL
  refine ⟨fun K => (hc.ordered K).imp fun _ h => h.1, hc.current, fun hlen => Log.nodup_of_under fun K => ?_⟩
  obtain ⟨m, hm, -⟩ := hc.ordered K
  -- each key's nonces are its first `m` counters, with `m` below the bound
  have hle : m ≤ 2 ^ 64 := hm.length ▸ hlen K
  exact hm.nodup fun i hi j hj h => ackNonce_ofNat_inj (by omega) (by omega) h

end Rosenpass
