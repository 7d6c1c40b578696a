/-
Replay protection by biscuit numbers (`store_biscuit`, `load_biscuit`,
`handle_init_conf`).

The responder hands out each biscuit with the number `biscuit_ctr` and then increments
the counter, so the numbers it hands out over a run are successive and, until 2^96 of
them wrap the twelve bytes, distinct. Each peer keeps the number of the last biscuit it
went live with (`biscuit_used`); an InitConf whose biscuit is not newer than that is
acknowledged on the session the peer has, and changes no session, so a replayed InitConf
cannot install or replace one. No operation lowers a peer's number.
-/
import Mathlib.Data.List.Nodup
import Rosenpass.Protocol.Steps

namespace Rosenpass

open EStateM Buffer LittleEndian

variable {P : Primitives}

/-! ## The biscuit numbers -/

/-- The biscuit numbers: the last one each peer accepted, and the server's next one. -/
def biscuitNumbers : Observation Bytes Bytes where
  peer q := q.biscuitUsed
  srv srv := srv.biscuitCtr

theorem biscuitNumbers_handshakeBlind : biscuitNumbers.HandshakeBlind where
  handshake _ _ := rfl
  initiationRequested _ _ := rfl
  peers _ _ := rfl
  sid _ _ _ := rfl
  biscuitKey _ _ _ := rfl
  cookieSecret _ _ _ := rfl
  peerPollOff _ _ := rfl

theorem biscuitNumbers_sessionBlind : biscuitNumbers.SessionBlind := ⟨fun _ _ => rfl⟩

/-! ## `handle_init_conf` -/

/-- A session as it was, or with one more nonce used: what an acknowledgement does. -/
def SessionKept (s s' : Option Session) : Prop :=
  s' = s ∨ ∃ x, s = some x ∧ s' = some { x with txnm := x.txnm + 1 }

/-- What `handle_init_conf` may do to the peers: each keeps its biscuit number and, up to
an acknowledgement, its session; except the peer of the InitConf's biscuit, as
`load_biscuit` opens it, when the biscuit's number is above the peer's last one: that
peer then has the biscuit's number. -/
def InitConfEffect (P : Primitives) (rx : Bytes) (c c' : Ctx) : Prop :=
  c'.srv.peers.length = c.srv.peers.length ∧
  ∀ i q, c.srv.peers[i]? = some q → ∃ q', c'.srv.peers[i]? = some q' ∧
    ((q'.biscuitUsed = q.biscuitUsed ∧ SessionKept q.session q'.session) ∨
      ∃ no hs, HandshakeState.loadBiscuit P c.srv ((Envelope.field InitConf.biscuit).get rx)
          ((Envelope.field InitConf.sidi).get rx) ((Envelope.field InitConf.sidr).get rx) = .ok (⟨i⟩, no, hs) ∧
        value q.biscuitUsed < value no ∧ q'.biscuitUsed = no)

section InitConf

variable {rx : Bytes} {c : Ctx}

theorem InitConfEffect.refl (c : Ctx) : InitConfEffect P rx c c :=
  ⟨rfl, fun _ q hq => ⟨q, hq, .inl ⟨rfl, .inl rfl⟩⟩⟩

/-- The acknowledgement of a stale InitConf: one more nonce on the peer's session. -/
theorem InitConfEffect.ack {peer : PeerPtr} {q : Peer} {ses : Session} (hq : c.srv.peer peer.val = .ok q)
    (hs : q.session = some ses) (tx : Bytes) :
    InitConfEffect P rx c
      ⟨c.srv.updatePeer peer.val fun q => { q with session := some { ses with txnm := ses.txnm + 1 } }, tx⟩ := by
  refine ⟨CryptoServer.length_updatePeer _ _ _, fun i q' hq' => ?_⟩
  rw [CryptoServer.getElem?_updatePeer]
  by_cases hi : peer.val = i
  · subst hi
    have hqq : q' = q := Option.some.inj (hq'.symm.trans (CryptoServer.peer_eq_ok.1 hq))
    subst hqq
    exact ⟨{ q' with session := some { ses with txnm := ses.txnm + 1 } }, by simp [hq'],
      .inl ⟨rfl, .inr ⟨ses, hs, rfl⟩⟩⟩
  · exact ⟨q', by simp [hi, hq'], .inl ⟨rfl, .inl rfl⟩⟩

/-- Going live on a fresh biscuit: the peer has the biscuit's number and no other peer
changes. -/
theorem InitConfEffect.accept {peer : PeerPtr} {no : Bytes} {hs : HandshakeState} {q : Peer} {c' : Ctx}
    (hload : HandshakeState.loadBiscuit P c.srv ((Envelope.field InitConf.biscuit).get rx)
      ((Envelope.field InitConf.sidi).get rx) ((Envelope.field InitConf.sidr).get rx) = .ok (peer, no, hs))
    (hq : c.srv.peer peer.val = .ok q) (hlt : value q.biscuitUsed < value no)
    (hrest : OnlyPeer peer.val ⟨c.srv.updatePeer peer.val fun q => { q with biscuitUsed := no }, c.tx⟩ c' ∧
      biscuitNumbers.Same ⟨c.srv.updatePeer peer.val fun q => { q with biscuitUsed := no }, c.tx⟩ c') :
    InitConfEffect P rx c c' := by
  obtain ⟨⟨hlen, hother⟩, hused, -⟩ := hrest
  refine ⟨hlen.trans (CryptoServer.length_updatePeer _ _ _), fun i q' hq' => ?_⟩
  by_cases hi : i = peer.val
  · subst hi
    have hqq : q' = q := Option.some.inj (hq'.symm.trans (CryptoServer.peer_eq_ok.1 hq))
    subst hqq
    -- the peer is still there, and the number written at ICR6 stays
    have hlt' : peer.val < c'.srv.peers.length := by
      rw [hlen, CryptoServer.length_updatePeer]
      exact (List.getElem?_eq_some_iff.1 hq').1
    refine ⟨_, List.getElem?_eq_getElem hlt', .inr ⟨no, hs, hload, hlt, ?_⟩⟩
    have := congrArg (·[peer.val]?) hused
    simpa [biscuitNumbers, List.getElem?_eq_getElem hlt', CryptoServer.getElem?_updatePeer, hq'] using this
  · refine ⟨q', ?_, .inl ⟨rfl, .inl rfl⟩⟩
    rw [hother i hi, CryptoServer.getElem?_updatePeer, if_neg (Ne.symm hi), hq']

/-- ICR5 and ICR6: `handle_init_conf` changes a peer's biscuit number or session only for
a biscuit newer than the peer's last; an InitConf with an older or the same biscuit is
acknowledged on the session the peer has. -/
theorem wp_handleInitConf (env : Env) (rx : Bytes) (c : Ctx) :
    wp (handleInitConf P env rx) (fun _ c' => InitConfEffect P rx c c') (fun _ c' => InitConfEffect P rx c c') c := by
  simp only [handleInitConf, wp_bind, wp_getSrv, wp_liftE]
  split
  · next r hload =>
    obtain ⟨peer, no, core⟩ := r
    dsimp only
    split
    · simp only [wp_PeerPtr_get]
      split
      · next q hq =>
        split
        · exact InitConfEffect.refl c
        · next cmp hcmp =>
          rw [wp_ite]
          split_ifs with hpos
          · -- ICR6 and ICR7; what follows touches only this peer, and no biscuit number
            have hlt := ConstantTime.value_lt_of_compare hcmp hpos
            rw [wp_bind, wp_PeerPtr_modify, hq]
            dsimp only
            refine Keeps.wp_bind_of (R := fun a b => OnlyPeer peer.val a b ∧ biscuitNumbers.Same a b)
              ⟨refl_of _ _, refl_of _ _⟩ (Keeps.and (OnlyPeer.keeps_SessionPtr_insert _ _)
                (keeps_SessionPtr_insert biscuitNumbers_handshakeBlind biscuitNumbers_sessionBlind _ _))
              (fun _ c₁ h₁ => ?_) fun _ _ h => InitConfEffect.accept hload hq hlt h
            refine Keeps.wp_bind_of h₁ (Keeps.and (OnlyPeer.keeps_IniHsPtr_take _)
                (keeps_IniHsPtr_take biscuitNumbers_handshakeBlind _))
              (fun _ c₂ h₂ => ?_) fun _ _ h => InitConfEffect.accept hload hq hlt h
            -- the acknowledgement writes the session of this peer only
            simp only [wp_bind, wp_PeerPtr_get]
            split
            · next q₂ hq₂ =>
              split
              · simp only [wp_pure, wp_bind, wp_writePayload, wp_PeerPtr_modify, hq₂]
                exact InitConfEffect.accept hload hq hlt ⟨trans_of _ h₂.1 (OnlyPeer.updatePeer _ _ _),
                  trans_of _ h₂.2 (biscuitNumbers.same_updatePeer (fun q => biscuitNumbers_sessionBlind.session q _)
                    biscuitNumbers_handshakeBlind.peers)⟩
              · exact InitConfEffect.accept hload hq hlt h₂
            · exact InitConfEffect.accept hload hq hlt h₂
          · -- a biscuit that is not newer: only the acknowledgement
            simp only [wp_bind, wp_PeerPtr_get, hq]
            split
            · next ses hses =>
              simp only [wp_pure, wp_bind, wp_writePayload, wp_PeerPtr_modify, hq]
              exact InitConfEffect.ack hq hses _
            · simp only [wp_bind, wp_bail]
              exact InitConfEffect.refl c
      · exact InitConfEffect.refl c
    · exact InitConfEffect.refl c
  · exact InitConfEffect.refl c

end InitConf

/-! ## Handing out biscuits -/

/-- The server's next biscuit number, by itself. -/
def counter : Observation Unit Bytes where
  peer _ := ()
  srv srv := srv.biscuitCtr

theorem counter_handshakeBlind : counter.HandshakeBlind :=
  ⟨fun _ _ => rfl, fun _ _ => rfl, fun _ _ => rfl, fun _ _ _ => rfl, fun _ _ _ => rfl, fun _ _ _ => rfl,
    fun _ _ => rfl⟩

theorem counter_handlersKeep : HandlersKeep P counter.Same :=
  Observation.handlersKeep counter_handshakeBlind ⟨fun _ _ => rfl⟩ fun _ _ => rfl

/-- One call and the biscuits: the number stays and no RespHello goes out, or a RespHello
goes out whose biscuit carries the number, which is then incremented. -/
def IssueStep (P : Primitives) (c c' : Ctx) (sent : Option Bytes) : Prop :=
  (c'.srv.biscuitCtr = c.srv.biscuitCtr ∧ ∀ m, sent = some m → m.headD 0 ≠ MsgType.RespHello.toU8) ∨
  (c'.srv.biscuitCtr = ConstantTime.increment c.srv.biscuitCtr ∧
    ∃ m, sent = some m ∧ m.headD 0 = MsgType.RespHello.toU8 ∧ carriedNo P c'.srv m = some c.srv.biscuitCtr)

section Issue

variable (hx : P.xaead.Correct) {env : Env} {c : Ctx} (hno : c.srv.biscuitCtr.length = BISCUIT_ID_LEN)
include hx hno

/-- RHR6: `handle_msg` answers with a RespHello exactly when it consumes a biscuit number,
and the RespHello's biscuit carries that number. -/
theorem wp_handleMsg_issue (rx : Bytes) :
    wp (handleMsg P env rx) (fun res c' => IssueStep P c c' (Outcome.sent c'.tx (.msg res)))
      (fun _ c' => c'.srv.biscuitCtr = c.srv.biscuitCtr) c := by
  by_cases hrx : rx.headD 0 = MsgType.InitHello.toU8
  · apply wp_handleMsg_initHello hrx
    · intro _
      rfl
    intro c' hstep hty hout
    refine .inr ⟨hstep.biscuitCtr, c'.tx.take (Envelope.size (RespHello.size P)), rfl, ?_, ?_⟩
    · rw [List.headD_eq_head?_getD, List.head?_take, if_neg (by simp [Envelope.size]), ← List.headD_eq_head?_getD]
      exact hty
    · rw [carriedNo_take]
      exact (hout hno).carriedNo hx hno hstep.spkm
  · exact wp_mono (wp_handleMsg_notInitHello counter_handlersKeep hrx) (fun _ _ h => .inl ⟨h.1.2, h.2⟩)
      fun _ _ h => h.2

/-- The same under load: an InitConf, or an InitHello with a valid cookie, goes to
`handle_msg`; an InitHello without one gets a CookieReply. -/
theorem wp_handleMsgUnderLoad_issue (rx host : Bytes) :
    wp (handleMsgUnderLoad P env rx host) (fun res c' => IssueStep P c c' (Outcome.sent c'.tx (.msg res)))
      (fun _ c' => c'.srv.biscuitCtr = c.srv.biscuitCtr) c := by
  apply wp_handleMsgUnderLoad (S := fun c₁ => c₁.srv.biscuitCtr = c.srv.biscuitCtr) rfl (fun _ _ => rfl)
  · intro c₁ hS₁ _
    refine wp_mono (wp_handleMsg_issue hx (hS₁ ▸ hno) rx) (fun _ _ h => ?_) fun _ _ h => h.trans hS₁
    unfold IssueStep at h ⊢
    rw [hS₁] at h
    exact h
  · intro c₁ tx' len hS₁ hty
    refine .inl ⟨hS₁, fun m hm => ?_⟩
    simp only [Outcome.sent, Option.map_some, Option.some.injEq] at hm
    subst hm
    -- a prefix of a CookieReply: its type, or nothing
    rw [List.headD_eq_head?_getD, List.head?_take]
    split_ifs
    · decide
    · rw [← List.headD_eq_head?_getD, hty]
      decide
  · intro _ _ _ hS₁
    exact hS₁

end Issue

/-- The biscuit a step of the server hands out: the number carried by the RespHello it
answers with, as the server it leaves opens it; none for a step that sends no RespHello. -/
def issuedBy (P : Primitives) : Result Fault Ctx Outcome → Option (Option Bytes)
  | .ok (.msg r) c => match Outcome.sent c.tx (.msg r) with
    | some m => if m.headD 0 = MsgType.RespHello.toU8 then some (carriedNo P c.srv m) else none
    | none => none
  | _ => none

/-- A step from the server `srv` keeps the biscuit number and hands out no biscuit, or
hands out one carrying the number and increments it. -/
def Issues (P : Primitives) (srv : CryptoServer) (r : Result Fault Ctx Outcome) : Prop :=
  (r.state.srv.biscuitCtr = srv.biscuitCtr ∧ issuedBy P r = none) ∨
  (r.state.srv.biscuitCtr = ConstantTime.increment srv.biscuitCtr ∧ issuedBy P r = some (some srv.biscuitCtr))

theorem IssueStep.issues {c c' : Ctx} {res : HandleMsgResult} (h : IssueStep P c c' (Outcome.sent c'.tx (.msg res))) :
    Issues P c.srv (.ok (.msg res) c') := by
  rcases h with ⟨hctr, hnot⟩ | ⟨hctr, m, hm, hty, hno⟩
  · refine .inl ⟨hctr, ?_⟩
    cases hs : Outcome.sent c'.tx (.msg res) with
    | none => simp only [issuedBy, hs]
    | some m => simp only [issuedBy, hs, if_neg (hnot m hs)]
  · exact .inr ⟨hctr, by simp only [issuedBy, hm, hty, if_true, hno]⟩

/-- The operations other than `handle_msg` and `handle_msg_under_load` keep the number. -/
theorem issues_of_keeps {β : Type} {f : β → Outcome} {x : ServerM β} {c : Ctx}
    (hf : ∀ b, ∀ r, f b ≠ .msg r) (hx : Keeps (fun c c' => c'.srv.biscuitCtr = c.srv.biscuitCtr) x) :
    Issues P c.srv ((f <$> x).run c) := by
  apply wp_result
  rw [wp_map]
  refine Keeps.wp_of hx (fun b _ h => .inl ⟨h, ?_⟩) fun _ _ h => .inl ⟨h, rfl⟩
  cases hb : f b with
  | msg r => exact absurd hb (hf b r)
  | _ => rfl

theorem keeps_addPeer_biscuitCtr (psk : Option Bytes) (pk : Bytes) :
    Keeps (fun c c' => c'.srv.biscuitCtr = c.srv.biscuitCtr) (addPeer P psk pk) := by
  refine Keeps.bind (fun _ => rfl) fun srv => ?_
  split
  · exact fun _ => rfl
  · exact Keeps.bind (fun _ => rfl) fun _ _ => rfl

/-- **Every step hands out biscuits by the counter.** -/
theorem exec_issues (hx : P.xaead.Correct) (op : Op) (env : Env) (c : Ctx)
    (hno : c.srv.biscuitCtr.length = BISCUIT_ID_LEN) : Issues P c.srv ((op.exec P env).run c) := by
  have hctr : ∀ c c' : Ctx, counter.Same c c' → c'.srv.biscuitCtr = c.srv.biscuitCtr := fun _ _ h => h.2
  cases op with
  | handleMsg rx =>
    apply wp_result
    rw [Op.exec, wp_map]
    exact wp_mono (wp_handleMsg_issue hx hno rx) (fun _ _ h => h.issues) fun _ _ h => .inl ⟨h, rfl⟩
  | handleMsgUnderLoad rx host =>
    apply wp_result
    rw [Op.exec, wp_map]
    exact wp_mono (wp_handleMsgUnderLoad_issue hx hno rx host) (fun _ _ h => h.issues) fun _ _ h => .inl ⟨h, rfl⟩
  | addPeer psk pk => exact issues_of_keeps (fun _ _ => nofun) (keeps_addPeer_biscuitCtr psk pk)
  | initiateHandshake peer =>
    exact issues_of_keeps (fun _ _ => nofun) (Keeps.mono hctr (keeps_initiateHandshake counter_handshakeBlind env peer))
  | poll =>
    exact issues_of_keeps (fun _ _ => nofun)
      (Keeps.mono hctr (keeps_poll counter_handshakeBlind ⟨fun _ _ => rfl⟩ env))
  | retransmitHandshake peer =>
    exact issues_of_keeps (fun _ _ => nofun) (Keeps.mono (fun _ _ h => by rw [h]) (keeps_retransmitHandshake peer))

/-! ## The ledger of biscuits handed out -/

/-- A run of the server with the biscuits it has handed out so far, oldest first. -/
structure Ledger where
  w : World
  issued : List (Option Bytes)

/-- A step of the server that records the biscuit it hands out. -/
def Ledger.Step (P : Primitives) (L L' : Ledger) : Prop :=
  ∃ (op : Op) (env : Env) (tx : Bytes),
    L.w.now ≤ env.now ∧
    (∀ e c, (op.exec P env).run ⟨L.w.srv, tx⟩ ≠ .error (.panic e) c) ∧
    L' = ⟨⟨((op.exec P env).run ⟨L.w.srv, tx⟩).state.srv, env.now⟩,
      L.issued ++ (issuedBy P ((op.exec P env).run ⟨L.w.srv, tx⟩)).toList⟩

def ledgerSpec (P : Primitives) : System.Spec Ledger where
  init L := (serverSpec P).init L.w ∧ L.issued = []
  next := Ledger.Step P

/-- The numbers of the first `k` biscuits: `1, 2, …, k`, as twelve little-endian bytes. -/
def countedNos (k : Nat) : List (Option Bytes) :=
  (List.range k).map fun j => some (bytes BISCUIT_ID_LEN (1 + j))

/-- Until the twelve bytes wrap, the numbers are distinct. -/
theorem nodup_countedNos {k : Nat} (hk : k ≤ 2 ^ 96) : (countedNos k).Nodup := by
  refine List.Nodup.map_on (fun x hx y hy hxy => ?_) List.nodup_range
  have hv := congrArg value (Option.some.inj hxy)
  simp only [value_bytes, BISCUIT_ID_LEN, List.mem_range] at hv hx hy
  norm_num at hv
  omega

theorem countedNos_succ (k : Nat) :
    countedNos (k + 1) = countedNos k ++ [some (bytes BISCUIT_ID_LEN (1 + k))] := by
  simp only [countedNos, List.range_succ, List.map_append, List.map_cons, List.map_nil]

/-- After `k` biscuits the counter holds `k + 1`, and the ones handed out carried
`1, …, k`. -/
def Counted (L : Ledger) : Prop :=
  L.w.srv.biscuitCtr = bytes BISCUIT_ID_LEN (1 + L.issued.length) ∧ L.issued = countedNos L.issued.length

theorem counted_init {L : Ledger} (h : (ledgerSpec P).init L) : Counted L := by
  obtain ⟨⟨coins, sk, pk, hw⟩, hi⟩ := h
  unfold Counted
  rw [hw, hi]
  exact ⟨rfl, rfl⟩

/-- A step of the ledger: the record and the counter stay, or the record gains the
counter's number and the counter is incremented. -/
theorem Ledger.Step.issues (hx : P.xaead.Correct) {L L' : Ledger} (h : Ledger.Step P L L')
    (hno : L.w.srv.biscuitCtr.length = BISCUIT_ID_LEN) :
    (L'.issued = L.issued ∧ L'.w.srv.biscuitCtr = L.w.srv.biscuitCtr) ∨
    (L'.issued = L.issued ++ [some L.w.srv.biscuitCtr] ∧
      L'.w.srv.biscuitCtr = ConstantTime.increment L.w.srv.biscuitCtr) := by
  obtain ⟨op, env, tx, -, -, rfl⟩ := h
  rcases exec_issues hx op env ⟨L.w.srv, tx⟩ hno with ⟨hc, hi⟩ | ⟨hc, hi⟩
  · exact .inl ⟨by simp only [hi, Option.toList_none, List.append_nil], hc⟩
  · exact .inr ⟨by simp only [hi, Option.toList_some], hc⟩

theorem Counted.step (hx : P.xaead.Correct) {L L' : Ledger} (hL : Counted L) (h : Ledger.Step P L L') :
    Counted L' := by
  obtain ⟨hctr, hiss⟩ := hL
  have hno : L.w.srv.biscuitCtr.length = BISCUIT_ID_LEN := by rw [hctr, length_bytes]
  rcases h.issues hx hno with ⟨hi, hc⟩ | ⟨hi, hc⟩
  · rw [Counted, hi, hc]
    exact ⟨hctr, hiss⟩
  · rw [Counted, hi, hc, hctr, List.length_append, List.length_singleton, ConstantTime.increment_bytes,
      countedNos_succ, ← hiss]
    exact ⟨congrArg _ (by omega), rfl⟩

theorem counted_invariant (hx : P.xaead.Correct) : System.Invariant (ledgerSpec P) Counted :=
  System.invariant_of_inductive (fun _ => counted_init) (fun _ _ hL h => hL.step hx h) fun _ h => h

/-! ## `biscuit_used` -/

/-- Every peer is still there, with a number not below the one it had. -/
def UsedGrows (c c' : Ctx) : Prop :=
  ∀ (i : Nat) (q : Peer), c.srv.peers[i]? = some q → ∃ q', c'.srv.peers[i]? = some q' ∧ value q.biscuitUsed ≤ value q'.biscuitUsed

instance : Std.Refl UsedGrows := ⟨fun _ _ q hq => ⟨q, hq, le_rfl⟩⟩

instance : IsTrans Ctx UsedGrows := by
  refine ⟨fun _ _ _ h₁ h₂ i q hq => ?_⟩
  obtain ⟨q₁, hq₁, hle₁⟩ := h₁ i q hq
  obtain ⟨q₂, hq₂, hle₂⟩ := h₂ i q₁ hq₁
  exact ⟨q₂, hq₂, hle₁.trans hle₂⟩

theorem UsedGrows.of_peers {c c' : Ctx} (h : c'.srv.peers = c.srv.peers) : UsedGrows c c' :=
  fun _ q hq => ⟨q, h ▸ hq, le_rfl⟩

theorem UsedGrows.of_same {c c' : Ctx} (h : biscuitNumbers.Same c c') : UsedGrows c c' := by
  intro i q hq
  have hi := congrArg (·[i]?) h.1
  simp only [List.getElem?_map, hq, Option.map_some] at hi
  obtain ⟨q', hq', hbu⟩ := Option.map_eq_some_iff.1 hi
  exact ⟨q', hq', le_of_eq (congrArg value hbu).symm⟩

theorem InitConfEffect.usedGrows {rx : Bytes} {c c' : Ctx} (h : InitConfEffect P rx c c') : UsedGrows c c' := by
  intro i q hq
  obtain ⟨q', hq', ⟨hbu, -⟩ | ⟨no, hs, -, hlt, hno⟩⟩ := h.2 i q hq
  · exact ⟨q', hq', le_of_eq (congrArg value hbu).symm⟩
  · exact ⟨q', hq', hno ▸ hlt.le⟩

theorem usedGrows_handlersKeep : HandlersKeep P UsedGrows where
  sameSrv _ _ h := UsedGrows.of_peers (congrArg CryptoServer.peers h)
  respHello env rx :=
    Keeps.mono (fun _ _ => UsedGrows.of_same)
      (keeps_handleRespHello biscuitNumbers_handshakeBlind biscuitNumbers_sessionBlind env rx)
  initConf env rx c :=
    wp_state (wp_mono (wp_handleInitConf env rx c) (fun _ _ h => h.usedGrows) fun _ _ h => h.usedGrows)
  respConf rx :=
    Keeps.mono (fun _ _ => UsedGrows.of_same)
      (keeps_handleRespConf biscuitNumbers_handshakeBlind biscuitNumbers_sessionBlind rx)
  cookieReply env rx := Keeps.mono (fun _ _ => UsedGrows.of_same) (keeps_handleCookieReply biscuitNumbers_handshakeBlind env rx)
  storeMsg env p msg :=
    Keeps.mono (fun _ _ => UsedGrows.of_same) (keeps_storeMsgForRetransmission biscuitNumbers_handshakeBlind env p msg)

/-- Adding a peer puts it behind the others. -/
theorem keeps_addPeer_usedGrows (psk : Option Bytes) (pk : Bytes) : Keeps UsedGrows (addPeer P psk pk) := by
  refine Keeps.bind (fun _ => refl_of UsedGrows _) fun srv => ?_
  split
  · exact fun _ => refl_of UsedGrows _
  · refine Keeps.bind ?_ fun _ => Keeps.pure _
    intro c i q hq
    rw [run_modifySrv]
    exact ⟨q, List.getElem?_append_left (List.getElem?_eq_some_iff.1 hq).1 ▸ hq, le_rfl⟩

theorem keeps_exec_usedGrows (env : Env) (op : Op) : Keeps UsedGrows (op.exec P env) :=
  usedGrows_handlersKeep.keeps_exec (fun _ _ _ h => UsedGrows.of_peers h.peers)
    (fun _ _ _ => UsedGrows.of_peers rfl) keeps_addPeer_usedGrows
    (fun env peer => Keeps.mono (fun _ _ => UsedGrows.of_same) (keeps_initiateHandshake biscuitNumbers_handshakeBlind env peer))
    (fun env => Keeps.mono (fun _ _ => UsedGrows.of_same)
      (keeps_poll biscuitNumbers_handshakeBlind biscuitNumbers_sessionBlind env)) env op

/-! ## Replay protection -/

/-- **Biscuit replay protection**, over every run. A step hands out no biscuit and keeps the
counter, or hands out one carrying the counter's number and increments the counter; the
numbers handed out are distinct until 2^96 of them wrap the counter; no step lowers a
peer's `biscuit_used`; and `handle_init_conf` changes a peer's session or number only for
a biscuit newer than the peer's last. -/
theorem biscuit_replay_protection (hx : P.xaead.Correct) :
    System.ActionInvariant (ledgerSpec P) (fun L L' =>
      (L'.issued = L.issued ∧ L'.w.srv.biscuitCtr = L.w.srv.biscuitCtr) ∨
      (L'.issued = L.issued ++ [some L.w.srv.biscuitCtr] ∧
        value L'.w.srv.biscuitCtr = (value L.w.srv.biscuitCtr + 1) % 2 ^ 96)) ∧
    System.Invariant (ledgerSpec P) (fun L => L.issued.length ≤ 2 ^ 96 → L.issued.Nodup) ∧
    (∀ w w', World.Step P w w' → ∀ (i : Nat) (q : Peer), w.srv.peers[i]? = some q →
      ∃ q', w'.srv.peers[i]? = some q' ∧ value q.biscuitUsed ≤ value q'.biscuitUsed) ∧
    (∀ env rx c, wp (handleInitConf P env rx) (fun _ c' => InitConfEffect P rx c c')
      (fun _ c' => InitConfEffect P rx c c') c) := by
  refine ⟨?_, ?_, ?_, wp_handleInitConf⟩
  · refine System.ActionInvariant.of_invariant (counted_invariant hx) fun L L' hL h => ?_
    have hno : L.w.srv.biscuitCtr.length = BISCUIT_ID_LEN := by rw [hL.1, length_bytes]
    rcases h.issues hx hno with hkeep | ⟨hi, hc⟩
    · exact .inl hkeep
    · refine .inr ⟨hi, ?_⟩
      rw [hc, ConstantTime.increment, ConstantTime.value_incrementFrom, UInt8.toNat_one, hno]
      rfl
  · intro L hL hk
    rw [(counted_invariant hx L hL).2]
    exact nodup_countedNos hk
  · rintro w w' ⟨op, env, tx, -, -, rfl⟩
    exact keeps_exec_usedGrows env op ⟨w.srv, tx⟩

theorem biscuit_replay_protection_small :
    Primitives.small.xaead.Correct ∧
    System.ActionInvariant (ledgerSpec Primitives.small) (fun L L' =>
      (L'.issued = L.issued ∧ L'.w.srv.biscuitCtr = L.w.srv.biscuitCtr) ∨
      (L'.issued = L.issued ++ [some L.w.srv.biscuitCtr] ∧
        value L'.w.srv.biscuitCtr = (value L.w.srv.biscuitCtr + 1) % 2 ^ 96)) ∧
    System.Invariant (ledgerSpec Primitives.small) (fun L => L.issued.length ≤ 2 ^ 96 → L.issued.Nodup) ∧
    (∀ w w', World.Step Primitives.small w w' → ∀ (i : Nat) (q : Peer), w.srv.peers[i]? = some q →
      ∃ q', w'.srv.peers[i]? = some q' ∧ value q.biscuitUsed ≤ value q'.biscuitUsed) ∧
    (∀ env rx c, wp (handleInitConf Primitives.small env rx) (fun _ c' => InitConfEffect Primitives.small rx c c')
      (fun _ c' => InitConfEffect Primitives.small rx c c') c) :=
  ⟨Aead.small_correct, biscuit_replay_protection Aead.small_correct⟩

end Rosenpass
