/-
Agreement: a handshake, run to its end, leaves the two parties with matching sessions.

The five calls of one handshake are composed over the network of `Protocol.Network`:
`initiate_handshake` at the initiator, then `handle_msg` of each message by the party it
was sent to, each the latest message in its inbox. Between the calls each party is at a
stage of its own (`InitiatorReady`, `AwaitsResp`, `AwaitsAck` for the initiator,
`ResponderReady`, `Answered` for the responder), and one lemma per call takes a party
from one stage to the next, from the lemmas of `Protocol.Exchange`. The stages say only
what the next call reads, so a party may have had a session, or a handshake, with the
peer before: the handshake replaces them, as the periodic renegotiation does.

The primitives are assumed correct (decapsulation and decryption undo encapsulation and
encryption); nothing is assumed of their security, so this is agreement between honest
parties, not authentication against an adversary.
-/
import Rosenpass.Protocol.Exchange
import Rosenpass.Protocol.Network

namespace Rosenpass

open EStateM Buffer LittleEndian

variable {P : Primitives}

/-! ## The stages of a handshake -/

/-- A server that can start a handshake with its peer `j` (`q`): its static keys are a key
pair. The peer may have a session, and a handshake, of its own. -/
structure InitiatorReady (P : Primitives) (srv : CryptoServer) (j : Nat) (q : Peer) : Prop where
  keys : ∃ rnd, P.staticKem.keygen rnd = (srv.sskm, srv.spkm)
  peer : srv.peer j = .ok q

/-- A server that can answer the initiator with the static key `spki` and the pre-shared key
`psk`: its static keys are a key pair, it knows the initiator as its peer `i` (`q`) with that
key, and the peer has no biscuit number used that is not older than the server's next. -/
structure ResponderReady (P : Primitives) (srv : CryptoServer) (spki psk : Bytes) (i : Nat) (q : Peer) : Prop where
  keys : ∃ rnd, P.staticKem.keygen rnd = (srv.sskm, srv.spkm)
  index : srv.index (.Peer (P.hash P.peerid spki)) = some i
  peer : srv.peer i = .ok q
  spkt : q.spkt = spki
  psk : q.psk = psk
  biscuitCtr : srv.biscuitCtr.length = BISCUIT_ID_LEN
  biscuitUsed : q.biscuitUsed.length = BISCUIT_ID_LEN
  fresh : value q.biscuitUsed < value srv.biscuitCtr

/-- The initiator once the InitHello of the hello `h` to its peer `j` is out: the
handshake `hs` in the state after the InitHello, with the ephemeral key pair it drew, and
its id pointing at the peer. -/
structure AwaitsResp (P : Primitives) (srv : CryptoServer) (h : Hello) (j : Nat) (hs : InitiatorHandshake) : Prop where
  keys : ∃ rnd, P.staticKem.keygen rnd = (srv.sskm, srv.spkm)
  spki : h.spki = srv.spkm
  index : srv.index (.Sid h.sidi) = some j
  peer : ∃ q, srv.peer j = .ok q ∧ q.handshake = some hs ∧ q.spkt = h.spkr
  core : hs.core = h.s₈ P
  next : hs.next = .RespHello
  eph : ∃ rnd, P.ephemeralKem.keygen rnd = (hs.eski, hs.epki)
  epki : hs.epki = h.epki

/-- The responder once its RespHello with the biscuit `bis` is out: it answered from the
server `srv₀` with the response `r`, and the peer `i` (`q`) of the initiator is as it was. -/
structure Answered (P : Primitives) (srv₀ srv : CryptoServer) (h : Hello) (r : Resp) (bis : Bytes) (i : Nat)
    (q : Peer) : Prop where
  spkm : srv.spkm = srv₀.spkm
  spkr : h.spkr = srv₀.spkm
  biscuit : BiscuitOf P srv₀ srv (r.s₅ P h) (q.pidt P) bis
  index : srv.index (.Peer (q.pidt P)) = some i
  peer : srv.peer i = .ok q
  spkt : q.spkt = h.spki
  biscuitCtr : srv₀.biscuitCtr.length = BISCUIT_ID_LEN
  biscuitUsed : q.biscuitUsed.length = BISCUIT_ID_LEN
  fresh : value q.biscuitUsed < value srv₀.biscuitCtr
  sid : srv.index (.Sid r.sidr) = none

/-- The initiator once the InitConf is out: live on the session `sa`, with the handshake
kept for retransmitting the InitConf until the acknowledgement. -/
structure AwaitsAck (srv : CryptoServer) (h : Hello) (j : Nat) (sa : Session) : Prop where
  spki : h.spki = srv.spkm
  index : srv.index (.Sid h.sidi) = some j
  peer : ∃ q hs, srv.peer j = .ok q ∧ q.session = some sa ∧ q.handshake = some hs ∧ hs.core.sidi = h.sidi ∧
    hs.next = .RespConf

section Stages

variable {srv : CryptoServer} {j i : Nat} {q : Peer} {h : Hello} {rx : Bytes}

/-- `initiate_handshake` at a ready initiator sends the InitHello of its hello. -/
theorem initiate_awaitsResp (env : Env) {tx : Bytes} (hA : InitiatorReady P srv j q)
    (hold : ∀ ho, q.handshake = some ho → ho.core.sidi ≠ draw SESSION_ID_LEN env.coins.sid)
    (hsidi : srv.index (.Sid (draw SESSION_ID_LEN env.coins.sid)) = none)
    (hlen : Envelope.size (InitHello.size P) ≤ tx.length) :
    wp ((Op.initiateHandshake ⟨j⟩).exec P env)
      (fun out c' => out.sent c'.tx = some (c'.tx.take (Envelope.size (InitHello.size P))) ∧
        InitHelloOf P (Hello.ofInitiator P env srv.spkm q) (c'.tx.take (Envelope.size (InitHello.size P))) ∧
        ∃ hs, AwaitsResp P c'.srv (Hello.ofInitiator P env srv.spkm q) j hs)
      (fun _ _ => False) ⟨srv, tx⟩ := by
  simp only [Op.exec, wp_map]
  apply wp_initiateHandshake_hello hA.peer hold hsidi hlen
  intro c' hs hmsg hspkm hsskm hidx hpeer hcore hnext heski hepki
  refine ⟨rfl, hmsg, hs, ?_, hspkm.symm, hidx, ⟨_, hpeer, rfl, rfl⟩, hcore, hnext,
    ⟨env.coins.eski, by rw [heski, hepki]⟩, hepki⟩
  obtain ⟨rnd, hkey⟩ := hA.keys
  exact ⟨rnd, by rw [hkey, hsskm, hspkm]⟩

/-- `handle_msg` of the InitHello of a hello at a ready responder with the initiator's key and
psk answers it with the RespHello of the response the responder draws. -/
theorem initHello_answered (env : Env) (ha : P.aead.Correct) {tx spki psk : Bytes} (hB : ResponderReady P srv spki psk i q)
    (hrx : InitHelloOf P h rx) (hspkr : h.spkr = srv.spkm) (hspki : h.spki = spki) (hpsk : h.psk = psk)
    (hsidi : h.sidi.length = SESSION_ID_LEN) (hdec : P.staticKem.decaps srv.sskm h.sctr = h.shk)
    (hsid : srv.index (.Sid (draw SESSION_ID_LEN env.coins.sid)) = none)
    (hlen : Envelope.size (RespHello.size P) ≤ tx.length) :
    wp ((Op.handleMsg rx).exec P env)
      (fun out c' => out.sent c'.tx = some (c'.tx.take (Envelope.size (RespHello.size P))) ∧
        ∃ bis, RespHelloOf P h (Resp.ofResponder P env h) bis (c'.tx.take (Envelope.size (RespHello.size P))) ∧
          Answered P srv c'.srv h (Resp.ofResponder P env h) bis i q)
      (fun _ _ => False) ⟨srv, tx⟩ := by
  simp only [Op.exec, wp_map]
  apply wp_handleMsg_initHello_resp ha hrx hspkr.symm hdec (hspki ▸ hB.index) hB.peer (hB.spkt.trans hspki.symm)
    (hB.psk.trans hpsk.symm) hsidi hB.biscuitCtr hlen
  intro c' bis hstep hof hmsg
  have hpid : q.pidt P = P.hash P.peerid spki := by rw [Peer.pidt, hB.spkt]
  refine ⟨rfl, bis, hmsg, hstep.spkm, hspkr, hof, ?_, (hstep.peer i).trans hB.peer, hB.spkt.trans hspki.symm,
    hB.biscuitCtr, hB.biscuitUsed, hB.fresh, ?_⟩
  · rw [hstep.index, hpid]
    exact hB.index
  · rw [hstep.index]
    exact hsid

/-- `handle_msg` of the RespHello of the response a responder drew, at the initiator
awaiting it: the InitConf, and the initiator live on the state the exchange ends in. -/
theorem respHello_awaitsAck (env : Env) (hke : P.ephemeralKem.Correct) (hks : P.staticKem.Correct) (ha : P.aead.Correct)
    {tx bis : Bytes} {env' : Env} {hs : InitiatorHandshake} (hA : AwaitsResp P srv h j hs)
    (hrx : RespHelloOf P h (Resp.ofResponder P env' h) bis rx)
    (hlen : Envelope.size InitConf.size ≤ tx.length) :
    wp ((Op.handleMsg rx).exec P env)
      (fun out c' => out.sent c'.tx = some (c'.tx.take (Envelope.size InitConf.size)) ∧
        InitConfOf P h (Resp.ofResponder P env' h) bis (c'.tx.take (Envelope.size InitConf.size)) ∧
        AwaitsAck c'.srv h j (((Resp.ofResponder P env' h).final P h bis).enterLive P env.now .Initiator))
      (fun _ _ => False) ⟨srv, tx⟩ := by
  obtain ⟨q, hq, hhs, hspkt⟩ := hA.peer
  obtain ⟨rnd, hkey⟩ := hA.keys
  obtain ⟨rnd', heph⟩ := hA.eph
  -- what the responder encapsulated opens under the initiator's ephemeral and static keys
  have hdecE : P.ephemeralKem.decaps hs.eski (Resp.ofResponder P env' h).ecti = (Resp.ofResponder P env' h).shke := by
    simp only [Resp.ofResponder, ← hA.epki]
    exact hke.decaps_encaps heph _
  have hdecS : P.staticKem.decaps srv.sskm (Resp.ofResponder P env' h).scti = (Resp.ofResponder P env' h).shks := by
    simp only [Resp.ofResponder, hA.spki]
    exact hks.decaps_encaps hkey _
  simp only [Op.exec, wp_map]
  apply wp_handleMsg_respHello_conf ha hrx hA.index hq hhs hA.core hA.next hA.epki hdecE hA.spki.symm hdecS hspkt
    hlen
  intro c' hs' hmsg hspkm hidx hpeer hsidi hnext
  exact ⟨rfl, hmsg, hA.spki.trans hspkm.symm, hidx, ⟨_, hs', hpeer, rfl, rfl, hsidi, hnext⟩⟩

/-- `handle_msg` of the InitConf at the responder that answered the exchange: the
acknowledgement, and the responder live on the state the exchange ends in. -/
theorem initConf_live (env : Env) (ha : P.aead.Correct) (hx : P.xaead.Correct) {tx bis : Bytes} {srv₀ : CryptoServer}
    {r : Resp} (hB : Answered P srv₀ srv h r bis i q) (hrx : InitConfOf P h r bis rx)
    (hlen : Envelope.size EmptyData.size ≤ tx.length) :
    wp ((Op.handleMsg rx).exec P env)
      (fun out c' => out.sent c'.tx = some (c'.tx.take (Envelope.size EmptyData.size)) ∧
        EmptyDataOf P h.spki ((r.final P h bis).enterLive P env.now .Responder)
          (c'.tx.take (Envelope.size EmptyData.size)) ∧
        c'.srv.peer i = .ok { q with
          biscuitUsed := srv₀.biscuitCtr
          session := some { (r.final P h bis).enterLive P env.now .Responder with txnm := 1 }
          handshake := none })
      (fun _ _ => False) ⟨srv, tx⟩ := by
  have hpid : (q.pidt P).length = KEY_LEN := P.length_hash _ _
  simp only [Op.exec, wp_map]
  apply wp_handleMsg_initConf_ack ha hx hrx (hB.spkm.trans hB.spkr.symm) hB.biscuit hB.spkm hpid hB.biscuitCtr
    hB.index hB.peer hB.biscuitUsed hB.fresh hB.sid hB.spkt hlen
  intro c' hmsg hpeer
  exact ⟨rfl, hmsg, hpeer⟩

/-- `handle_msg` of the acknowledgement of the responder's end of the exchange, at the
initiator awaiting it: no answer, and the initiator live without the handshake. -/
theorem emptyData_live (env : Env) (tx : Bytes) (ha : P.aead.Correct) {bis : Bytes} {r : Resp} {t t' : Timing}
    (hA : AwaitsAck srv h j ((r.final P h bis).enterLive P t .Initiator))
    (hrx : EmptyDataOf P srv.spkm ((r.final P h bis).enterLive P t' .Responder) rx) :
    wp ((Op.handleMsg rx).exec P env)
      (fun out c' => out.sent c'.tx = none ∧ ∃ q, c'.srv.peer j = .ok q ∧
        q.session = some ((r.final P h bis).enterLive P t .Initiator) ∧ q.handshake = none)
      (fun _ _ => False) ⟨srv, tx⟩ := by
  obtain ⟨q, hs, hq, hses, hhs, hsidi, hnext⟩ := hA.peer
  simp only [Op.exec, wp_map]
  apply wp_handleMsg_emptyData_done ha hrx hA.index hq hhs hsidi hnext hses rfl rfl (by simp [HandshakeState.enterLive])
  refine ⟨rfl, { q with session := some ((r.final P h bis).enterLive P t .Initiator), handshake := none },
    ?_, rfl, rfl⟩
  simp only [CryptoServer.peer_updatePeer, if_true, hq, Except.map]
  rfl

end Stages

/-! ## Agreement -/

/-- Two sessions are the two ends of one handshake: the initiator's and the responder's,
with one chaining key, each naming the other's session id, and each sending under the key
the other receives under. -/
structure Session.Agrees (a b : Session) : Prop where
  initiator : a.handshakeRole = .Initiator
  responder : b.handshakeRole = .Responder
  ck : a.ck = b.ck
  sidm : a.sidm = b.sidt
  sidt : a.sidt = b.sidm
  txkm : a.txkm = b.txkt
  txkt : a.txkt = b.txkm

/-- The sessions `enter_live` makes of one handshake state in the two roles are the two ends
of one, whatever nonces they have used. -/
theorem HandshakeState.agrees_enterLive (hs : HandshakeState) (t t' : Timing) (n : UInt64) :
    (hs.enterLive P t .Initiator).Agrees { hs.enterLive P t' .Responder with txnm := n } :=
  ⟨rfl, rfl, rfl, rfl, rfl, rfl, rfl⟩

/-- `osk(peer)` of a peer with a session: the key exported from its chaining key. -/
theorem CryptoServer.osk_of_session {srv : CryptoServer} {p : PeerPtr} {q : Peer} {s : Session}
    (hq : srv.peer p.val = .ok q) (hs : q.session = some s) : srv.osk P p = .ok (P.hash s.ck P.osk) := by
  have hq' : srv.peer p.val = pure q := hq
  simp only [CryptoServer.osk, hq', pure_bind, hs]
  rfl

/-- A handshake between two servers, its five messages delivered in order, at any times
and with any coins: the initiator is ready with its peer `j` (`qa`) that has the
responder's static key, and the responder knows the initiator as its peer `i` (`qb`) with
the same psk and an older biscuit. The session ids the two draw are not in use, and the
initiator's old handshake with the peer, if any, has another one. Then every call
succeeds, both end live on sessions that are the two ends of one, the initiator without
its handshake and the responder without one of its own, and both export the same output
key; whatever sessions they had before. -/
theorem handshake_agrees (hke : P.ephemeralKem.Correct) (hks : P.staticKem.Correct) (ha : P.aead.Correct)
    (hx : P.xaead.Correct) (hsize : Envelope.size (InitHello.size P) ≤ MAX_MESSAGE_LEN)
    (hsize' : Envelope.size (RespHello.size P) ≤ MAX_MESSAGE_LEN)
    {n : Net} {j i : Nat} {qa qb : Peer} (hA : InitiatorReady P n.a j qa) (hpk : qa.spkt = n.b.spkm)
    (hB : ResponderReady P n.b n.a.spkm qa.psk i qb) {env₁ env₂ env₃ env₄ env₅ : Env}
    (hold : ∀ ho, qa.handshake = some ho → ho.core.sidi ≠ draw SESSION_ID_LEN env₁.coins.sid)
    (hsidi : n.a.index (.Sid (draw SESSION_ID_LEN env₁.coins.sid)) = none)
    (hsidr : n.b.index (.Sid (draw SESSION_ID_LEN env₂.coins.sid)) = none) :
    ∃ n', Net.script P [(.initiate .a ⟨j⟩, env₁), (.receive .b 0, env₂), (.receive .a 0, env₃),
        (.receive .b 0, env₄), (.receive .a 0, env₅)] n = (n', none) ∧
      ∃ qa' qb' sa sb, n'.a.peer j = .ok qa' ∧ qa'.session = some sa ∧ qa'.handshake = none ∧
        n'.b.peer i = .ok qb' ∧ qb'.session = some sb ∧ qb'.handshake = none ∧ sa.Agrees sb ∧
        ∃ k, n'.a.osk P ⟨j⟩ = .ok k ∧ n'.b.osk P ⟨i⟩ = .ok k := by
  -- every call gets a fresh buffer of `MAX_MESSAGE_LEN` bytes, which stays opaque here
  obtain ⟨z, hz, hzlen⟩ := exists_zeros_eq MAX_MESSAGE_LEN
  have hroom : ∀ {m : Nat}, m ≤ MAX_MESSAGE_LEN → m ≤ z.length := fun hm => hm.trans_eq hzlen.symm
  -- 1. the initiator sends the InitHello of its hello
  obtain ⟨out₁, c₁, hexec₁, hsent₁, hmsg₁, hs, hA₁⟩ :=
    Net.exec_of_wp (s := .a) (initiate_awaitsResp env₁ hA hold hsidi (hroom hsize))
  rw [hsent₁] at hexec₁
  set n₁ : Net := ({ n.setSrv .a c₁.srv with now := env₁.now } : Net).send .b
    (some (c₁.tx.take (Envelope.size (InitHello.size P))))
  -- 2. the responder opens it with its static key, and answers with the RespHello
  have hdec : P.staticKem.decaps n.b.sskm (Hello.ofInitiator P env₁ n.a.spkm qa).sctr =
      (Hello.ofInitiator P env₁ n.a.spkm qa).shk := by
    obtain ⟨rnd, hkey⟩ := hB.keys
    simp only [Hello.ofInitiator, hpk]
    exact hks.decaps_encaps hkey _
  obtain ⟨out₂, c₂, hexec₂, hsent₂, bis, hmsg₂, hB₂⟩ :=
    Net.exec_of_wp (n := n₁) (s := .b) (initHello_answered env₂ ha hB hmsg₁ hpk rfl rfl
      (length_draw _ _) hdec hsidr (hroom hsize'))
  rw [hsent₂] at hexec₂
  set n₂ : Net := ({ n₁.setSrv .b c₂.srv with now := env₂.now } : Net).send .a
    (some (c₂.tx.take (Envelope.size (RespHello.size P))))
  -- 3. the initiator goes live and sends the InitConf
  obtain ⟨out₃, c₃, hexec₃, hsent₃, hmsg₃, hA₃⟩ :=
    Net.exec_of_wp (n := n₂) (s := .a) (respHello_awaitsAck env₃ hke hks ha hA₁ hmsg₂
      (hroom (by decide)))
  rw [hsent₃] at hexec₃
  set n₃ : Net := ({ n₂.setSrv .a c₃.srv with now := env₃.now } : Net).send .b
    (some (c₃.tx.take (Envelope.size InitConf.size)))
  -- 4. the responder goes live on its biscuit and acknowledges
  obtain ⟨out₄, c₄, hexec₄, hsent₄, hmsg₄, hpeer₄⟩ :=
    Net.exec_of_wp (n := n₃) (s := .b) (initConf_live env₄ ha hx hB₂ hmsg₃ (hroom (by decide)))
  rw [hsent₄] at hexec₄
  set n₄ : Net := ({ n₃.setSrv .b c₄.srv with now := env₄.now } : Net).send .a
    (some (c₄.tx.take (Envelope.size EmptyData.size)))
  -- 5. the acknowledgement ends the initiator's handshake
  obtain ⟨out₅, c₅, hexec₅, hsent₅, qa', hpeer₅, hsa, hhs₅⟩ :=
    Net.exec_of_wp (n := n₄) (s := .a) (emptyData_live env₅ z ha hA₃ (hA₃.spki ▸ hmsg₄))
  rw [hsent₅] at hexec₅
  have hoskB := CryptoServer.osk_of_session (P := P) hpeer₄ rfl
  refine ⟨_, Net.script_cons_ok hz rfl hexec₁ (Net.script_cons_ok hz rfl hexec₂ (Net.script_cons_ok hz rfl hexec₃
    (Net.script_cons_ok hz rfl hexec₄ (Net.script_cons_ok hz rfl hexec₅ rfl)))), qa', _, _, _, hpeer₅, hsa, hhs₅,
    hpeer₄, rfl, rfl, HandshakeState.agrees_enterLive _ _ _ _, _, CryptoServer.osk_of_session hpeer₅ hsa,
    hoskB⟩

theorem handshake_agrees_pair :
    ∃ n', Net.script Primitives.small [(.initiate .a ⟨0⟩, ⟨1, Coins.constant 1⟩),
        (.receive .b 0, ⟨2, Coins.constant 2⟩), (.receive .a 0, ⟨3, Coins.constant 3⟩),
        (.receive .b 0, ⟨4, Coins.constant 4⟩), (.receive .a 0, ⟨5, Coins.constant 5⟩)]
        (Net.pair Primitives.small (Coins.constant 0) (Coins.constant 0) [21] [21] [42] [42] (zeros KEY_LEN)) =
        (n', none) ∧
      ∃ qa' qb' sa sb, n'.a.peer 0 = .ok qa' ∧ qa'.session = some sa ∧ qa'.handshake = none ∧
        n'.b.peer 0 = .ok qb' ∧ qb'.session = some sb ∧ qb'.handshake = none ∧ sa.Agrees sb ∧
        ∃ k, n'.a.osk Primitives.small ⟨0⟩ = .ok k ∧ n'.b.osk Primitives.small ⟨0⟩ = .ok k :=
  handshake_agrees Kem.small_correct Kem.small_correct Aead.small_correct Aead.small_correct (by decide) (by decide)
    (⟨⟨fun _ => 21, rfl⟩, rfl⟩ : InitiatorReady _ _ 0 (Peer.new (zeros KEY_LEN) [42])) rfl
    (⟨⟨fun _ => 42, rfl⟩, by decide +kernel, rfl, rfl, rfl, by decide +kernel, by decide +kernel,
      by decide +kernel⟩ : ResponderReady _ _ _ _ 0 (Peer.new (zeros KEY_LEN) [21]))
    (fun _ h => by cases h) (by decide +kernel) (by decide +kernel)

end Rosenpass
