/-
What `handle_msg` and `handle_msg_under_load` do with a message they refuse.

Most handlers check before they write, but two of them do not. `handle_cookie_reply`
stamps the handshake's cookie value with the time of the call and decrypts into it
before it knows that the cookie is genuine. `handle_resp_conf` stores the received
nonce before it checks the tag. So a call that fails can still have changed the server,
and neither message needs any secret: a CookieReply carries no mac, and the mac of an
EmptyData is keyed with the receiver's public key.

`handle_msg` refuses an empty datagram. `handle_msg_under_load` reads its first byte
before any check of the length, so an empty datagram makes it panic.
-/
import Rosenpass.Properties.Index

namespace Rosenpass

open EStateM

variable {P : Primitives}

/-! ## Empty datagrams -/

theorem handleMsg_empty (env : Env) (c : Ctx) :
    (handleMsg P env []).run c = .error (.error "received empty message, ignoring it") c := rfl

/-- `handle_msg_under_load` panics on an empty datagram, whatever the server's state. -/
theorem handleMsgUnderLoad_empty_panics (env : Env) (host : Bytes) (c : Ctx) :
    (handleMsgUnderLoad P env [] host).run c =
      .error (.panic "index out of bounds: the len is 0 but the index is 0") c := rfl

/-! ## Writes before a failure -/

/-- A CookieReply for a peer whose handshake last sent an InitHello, with a cookie that
does not decrypt: `handle_msg` fails, and the handshake's cookie value is already
replaced by what the decryption left and stamped with the time of the call. -/
theorem handleMsg_cookieReply_stamps_before_failing {env : Env} {rx : Bytes} {c : Ctx} {peer : PeerPtr}
    {q : Peer} {ih : InitiatorHandshake} {v : Bytes}
    (hrx : rx.headD 0 = MsgType.CookieReply.toU8) (hlen : rx.length = CookieReply.size P)
    (hidx : c.srv.index (.Sid (CookieReply.sid.get rx)) = some peer.val)
    (hq : c.srv.peers[peer.val]? = some q) (hses : q.session.any (·.sidm == CookieReply.sid.get rx) = false)
    (hih : q.handshake = some ih) (hsid : ih.core.sidi = CookieReply.sid.get rx)
    (htx : ih.txBuf.headD 0 = MsgType.InitHello.toU8) (hsize : Envelope.size (InitHello.size P) ≤ ih.txBuf.length)
    (hdec : P.xaeadDecrypt (P.hash P.cookieKey q.spkt)
      ((Envelope.mac (InitHello.size P)).get (ih.txBuf.take (Envelope.size (InitHello.size P))))
      (CookieReply.cookieEncrypted.get rx) = .error v) :
    wp (handleMsg P env rx) (fun _ _ => False)
      (fun e c' => e = .error "aead::Error" ∧
        c' = { c with srv := c.srv.updatePeer peer.val fun q =>
          { q with handshake := q.handshake.map fun h => { h with cookieValue := h.cookieValue.update v env.now } } }) c := by
  have hne : rx ≠ [] := by
    rintro rfl
    simp [MsgType.toU8] at hrx
  have hpeer : c.srv.peer peer.val = .ok q := CryptoServer.peer_eq_ok.2 hq
  -- the stored message is at least an InitHello long, so its first byte is there
  have htx0 : ih.txBuf[0]? = some MsgType.InitHello.toU8 := by
    cases h : ih.txBuf with
    | nil => simp [h, Envelope.size] at hsize
    | cons b bs => simpa [h] using htx
  simp only [handleMsg, wp_bind, wp_ensure, ne_eq, hne, not_false_eq_true, ↓reduceIte, wp_getSrv, hrx,
    MsgType.tryFrom_toU8, wp_refNew, hlen]
  -- the id finds no session and the peer's handshake; its InitHello gives the mac
  simp only [handleCookieReply, wp_bind, wp_getSrv, wp_liftE, CryptoServer.lookupSession_of_index hidx hpeer,
    CryptoServer.lookupHandshake_of_index hidx hpeer, hses, hih, Option.any_some, hsid, beq_self_eq_true,
    Bool.false_eq_true, PeerPtr.hs_peer, ↓reduceIte, wp_pure, wp_PeerPtr_get, hpeer, htx0,
    MsgType.tryFrom_toU8, slicePrefix, hsize, hdec, wp_PeerPtr_modify, wp_bail, Option.map_some, and_self]

/-- The small primitives open no cookie of bytes one under a key and additional data that
are hash outputs: the checksum the tag would have to be is a multiple of 8. -/
theorem small_xaeadDecrypt_ones (y x : UInt8) :
    Primitives.small.xaeadDecrypt (List.replicate KEY_LEN y) (List.replicate 16 x) (List.replicate 56 1) =
      .error (List.replicate 16 1) := by
  have hsum : 1 ≠ byteSum (List.replicate KEY_LEN y ++ List.replicate 24 1 ++ List.replicate 16 x ++
      List.replicate 16 1) := by
    intro h
    have h1 := congrArg UInt8.toNat h
    simp only [byteSum_append, UInt8.toNat_add, toNat_byteSum_replicate, KEY_LEN, UInt8.toNat_one] at h1
    omega
  simp only [Primitives.xaeadDecrypt, Primitives.small, Aead.small, XAEAD_NONCE_LEN, TAG_LEN, List.drop_replicate,
    List.take_replicate, List.length_replicate, List.replicate_inj, Nat.reduceSub, show min 24 56 = 24 from rfl,
    show min 16 32 = 16 from rfl]
  rw [if_neg (by simp only [hsum]; decide)]

/-- A forged CookieReply changes the cookie value of a server that has just started a
handshake, and is refused. -/
theorem cookieReply_failure_changes_cookie_value :
    let a : CryptoServer := (Net.script Primitives.small [(.initiate .a ⟨0⟩, ⟨1, Coins.constant 1⟩)]
      (Net.pair Primitives.small (Coins.constant 0) (Coins.constant 0) [21] [21] [42] [42] (zeros KEY_LEN))).1.a
    let rx : Bytes := [MsgType.CookieReply.toU8, 0, 0, 0, 1, 1, 1, 1] ++
      List.replicate (CookieReply.size Primitives.small - 8) 1
    let r := (handleMsg Primitives.small ⟨2, Coins.constant 1⟩ rx).run ⟨a, zeros MAX_MESSAGE_LEN⟩
    r.error? = some (.error "aead::Error") ∧
      (a.peers[0]?.bind (·.handshake)).map (·.cookieValue.createdAt) = some BCE ∧
      (r.state.srv.peers[0]?.bind (·.handshake)).map (·.cookieValue.createdAt) = some 2 := by
  intro a rx r
  -- every call gets a fresh buffer of `MAX_MESSAGE_LEN` bytes, which stays opaque here
  obtain ⟨z, hz, hzlen⟩ := exists_zeros_eq MAX_MESSAGE_LEN
  -- the initiation at time 1 keeps its InitHello in the new handshake and indexes its id
  have hq₀ : (Net.pair Primitives.small (Coins.constant 0) (Coins.constant 0) [21] [21] [42] [42]
      (zeros KEY_LEN)).a.peer 0 = .ok (Peer.new (zeros KEY_LEN) [42]) := rfl
  have hfree : ∀ ho, (Peer.new (zeros KEY_LEN) [42]).handshake = some ho →
      ho.core.sidi ≠ draw SESSION_ID_LEN (Coins.constant 1).sid := fun _ h => by cases h
  obtain ⟨out₁, c₁, hexec₁, hsent₁, hmsg₁, -, -, hidx₁, -, hpeer₁⟩ := Net.exec_of_wp (s := .a)
    (initiate_registers (P := Primitives.small) ⟨1, Coins.constant 1⟩ hq₀ hfree (by decide +kernel) (by rw [hzlen]; decide))
  rw [hsent₁] at hexec₁
  have ha : a = c₁.srv := by
    show (Net.script _ _ _).1.a = _
    rw [Net.script_cons_ok hz rfl hexec₁ rfl]
    rfl
  set msg := c₁.tx.take (Envelope.size (InitHello.size Primitives.small))
  have hmsglen : msg.length = Envelope.size (InitHello.size Primitives.small) := hmsg₁.1.1
  have hne : msg ≠ [] := List.ne_nil_of_length_pos (by rw [hmsglen]; decide)
  -- the handshake keeps the InitHello whole, and with it the InitHello's mac
  have hbuf : (cpyMin msg (zeros MAX_MESSAGE_LEN)).take (Envelope.size (InitHello.size Primitives.small)) = msg := by
    rw [← hmsglen]
    exact take_cpyMin (by rw [hmsglen, hz, hzlen]; decide)
  -- the reply names the handshake's id, and its cookie opens under no hash outputs
  have hsid : CookieReply.sid.get rx = draw SESSION_ID_LEN (Coins.constant 1).sid := by decide
  have hdec : Primitives.small.xaeadDecrypt (Primitives.small.hash Primitives.small.cookieKey [42])
      ((Envelope.mac (InitHello.size Primitives.small)).get
        ((cpyMin msg (zeros MAX_MESSAGE_LEN)).take (Envelope.size (InitHello.size Primitives.small))))
      (CookieReply.cookieEncrypted.get rx) = .error (List.replicate 16 1) := by
    rw [hbuf, hmsg₁.1.2.2, show CookieReply.cookieEncrypted.get rx = List.replicate 56 1 by decide]
    exact small_xaeadDecrypt_ones _ _
  have hq₁ := CryptoServer.peer_eq_ok.1 hpeer₁
  -- `handle_cookie_reply` stamps the handshake's cookie value, then fails to decrypt
  obtain ⟨e, c', hrun, he, hc'⟩ := run_of_wp_error (x := handleMsg Primitives.small ⟨2, Coins.constant 1⟩ rx)
    (handleMsg_cookieReply_stamps_before_failing (c := ⟨c₁.srv, z⟩) (by decide) (by decide)
      (show c₁.srv.index _ = some (PeerPtr.mk 0).val by rw [hsid]; exact hidx₁) hq₁ rfl rfl hsid.symm
      (by rw [headD_cpyMin hne (by rw [zeros]; decide)]; exact hmsg₁.1.2.1)
      (by rw [length_cpyMin, hz, hzlen]; decide) hdec)
  have hr : r = .error e c' := by
    show (handleMsg _ _ rx).run ⟨a, zeros MAX_MESSAGE_LEN⟩ = _
    rw [ha, hz]
    exact hrun
  refine ⟨by rw [hr, he]; rfl, by rw [ha, hq₁]; rfl, ?_⟩
  rw [hr, hc']
  simp [CryptoServer.getElem?_updatePeer, hq₁, CookieStore.update]

/-- An EmptyData for a handshake that waits for it, with a counter not below the session's
and a tag that does not verify: `handle_resp_conf` fails with the counter already stored
as the session's `txnt`. A forged counter near the top thus makes the genuine
acknowledgements stale. -/
theorem handleRespConf_stores_nonce_before_failing {rx : Bytes} {c : Ctx} {peer : PeerPtr} {q : Peer}
    {ih : InitiatorHandshake} {s : Session} {ct : Bytes}
    (hidx : c.srv.index (.Sid ((Envelope.field EmptyData.sid).get rx)) = some peer.val)
    (hq : c.srv.peers[peer.val]? = some q) (hih : q.handshake = some ih)
    (hsid : ih.core.sidi = (Envelope.field EmptyData.sid).get rx) (hnext : ih.next = .RespConf)
    (hses : q.session = some s)
    (hn : s.txnt ≤ UInt64.ofNat (LittleEndian.value ((Envelope.field EmptyData.ctr).get rx)))
    (hdec : P.aeadDecrypt s.txkt ((Envelope.field EmptyData.ctr).get rx ++ zeros 4) []
      ((Envelope.field EmptyData.auth).get rx) = .error ct) :
    let n := UInt64.ofNat (LittleEndian.value ((Envelope.field EmptyData.ctr).get rx))
    wp (handleRespConf P rx) (fun _ _ => False)
      (fun e c' => e = .error "aead::Error" ∧
        c' = { c with srv := c.srv.updatePeer peer.val fun q => { q with session := some { s with txnt := n } } }) c := by
  intro n
  have hpeer : c.srv.peer peer.val = .ok q := CryptoServer.peer_eq_ok.2 hq
  simp only [handleRespConf, wp_bind, wp_getSrv, wp_liftE, CryptoServer.lookupHandshake_of_index hidx hpeer, hih,
    Option.any_some, hsid, beq_self_eq_true, ↓reduceIte, wp_pure, wp_PeerPtr_get, PeerPtr.hs_peer, hpeer,
    Option.map_some, hnext, wp_ensure, hses, ge_iff_le, hn, wp_PeerPtr_modify, hdec, wp_bail]
  exact ⟨trivial, rfl⟩

end Rosenpass
