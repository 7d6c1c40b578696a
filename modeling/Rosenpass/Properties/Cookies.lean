/-
The cookie field of what a server sends.

`seal_cookie` is where every sealed message gets its cookie: `seal` calls it after the
mac, and a retransmission calls it again over the stored message. It mixes whatever
cookie value the peer's current handshake holds. It never asks when that value was
stored: a value a CookieReply brought two hours ago is used as readily as one from a
second ago, and so is the random value `CookieStore::new` puts into every new handshake
(made at `BCE`), which no CookieReply brought at all. A peer with no handshake gets no
cookie: the field keeps what the transmit buffer held before.
-/
import Rosenpass.Protocol.Cookie

namespace Rosenpass

open EStateM Buffer

variable {P : Primitives}

/-- A peer with no handshake: `seal_cookie` writes nothing. -/
theorem sealCookie_of_no_handshake {n : Nat} {peer : PeerPtr} {c : Ctx} {q : Peer}
    (hq : c.srv.peer peer.val = .ok q) (hno : q.handshake = none) :
    (Envelope.sealCookie P n peer).run c = .ok () c := by
  simp only [Envelope.sealCookie]
  rw [run_bind_of_ok (PeerPtr.run_get hq), hno]
  rfl

/-- `seal_cookie` for a peer whose handshake holds the cookie value `hs.cookieValue`: the
cookie field becomes the cookie of that value over everything before the field,
whenever the value was stored, and nothing else of the envelope's head changes. -/
theorem sealCookie_ignores_cookie_age {n : Nat} {peer : PeerPtr} {c : Ctx} {hs : InitiatorHandshake}
    (hhs : (c.srv.peers[peer.val]?).bind (·.handshake) = some hs) (hlen : Envelope.size n ≤ c.tx.length) :
    ∃ tx', (Envelope.sealCookie P n peer).run c = .ok () { c with tx := tx' } ∧
      (Envelope.cookie n).get tx' =
        (P.hash (P.hash P.cookie hs.cookieValue.value) ((Envelope.cookieSpan n).get c.tx)).take 16 ∧
      (Envelope.cookieSpan n).get tx' = (Envelope.cookieSpan n).get c.tx := by
  obtain ⟨q, hq, hqhs⟩ := Option.bind_eq_some_iff.1 hhs
  let cookie := (P.hash (P.hash P.cookie hs.cookieValue.value) ((Envelope.cookieSpan n).get c.tx)).take 16
  have hcl : cookie.length = (Envelope.cookie n).len := by
    simp [cookie, Envelope.cookie, COOKIE_SIZE, KEY_LEN]
  have hfit : (Envelope.cookie n).stop ≤ c.tx.length := by
    simpa [Envelope.cookie, Envelope.size, Field.stop, Nat.add_assoc] using hlen
  -- the span ends where the cookie begins
  have hdisj : (Envelope.cookieSpan n).Disjoint (Envelope.cookie n) := by
    left
    simp [Envelope.cookieSpan, Envelope.cookie, Field.stop]
  refine ⟨(Envelope.cookie n).set cookie c.tx, ?_, Field.get_set_self _ hcl hfit,
    Field.get_set_of_disjoint hdisj hcl hfit⟩
  simp only [Envelope.sealCookie]
  rw [run_bind_of_ok (PeerPtr.run_get (CryptoServer.peer_eq_ok.2 hq)), hqhs]
  rfl

/-- A server with a peer whose handshake was just made, as `initiate_handshake` makes it,
before any CookieReply: the cookie field of its InitHello is not zero. -/
theorem sealCookie_ignores_cookie_age_fresh :
    let hs := InitiatorHandshake.zeroWithTimestamp Primitives.small ⟨1, Coins.constant 7⟩
    let c : Ctx := ⟨(Net.pair Primitives.small (Coins.constant 0) (Coins.constant 0) [21] [21] [42] [42]
      (zeros KEY_LEN)).a.updatePeer 0 (fun q => { q with handshake := some hs }), zeros MAX_MESSAGE_LEN⟩
    (c.srv.peers[0]?).bind (·.handshake) = some hs ∧
    Envelope.size (InitHello.size Primitives.small) ≤ c.tx.length ∧
    hs.cookieValue.createdAt = BCE ∧
    (Primitives.small.hash (Primitives.small.hash Primitives.small.cookie hs.cookieValue.value)
      ((Envelope.cookieSpan (InitHello.size Primitives.small)).get c.tx)).take 16 ≠ zeros 16 ∧
    ∃ tx', (Envelope.sealCookie Primitives.small (InitHello.size Primitives.small) ⟨0⟩).run c = .ok () { c with tx := tx' } ∧
      (Envelope.cookie (InitHello.size Primitives.small)).get tx' =
        (Primitives.small.hash (Primitives.small.hash Primitives.small.cookie hs.cookieValue.value)
          ((Envelope.cookieSpan (InitHello.size Primitives.small)).get c.tx)).take 16 ∧
      (Envelope.cookieSpan (InitHello.size Primitives.small)).get tx' =
        (Envelope.cookieSpan (InitHello.size Primitives.small)).get c.tx := by
  intro hs c
  have hhs : (c.srv.peers[0]?).bind (·.handshake) = some hs := by decide +kernel
  have hlen : Envelope.size (InitHello.size Primitives.small) ≤ c.tx.length := by decide +kernel
  exact ⟨hhs, hlen, rfl, by decide +kernel, sealCookie_ignores_cookie_age hhs hlen⟩

/-- **The cookie mechanism.** Under load, an InitHello of the right size goes to
`handle_msg` exactly when it carries the cookie of a live cookie secret, as
`active_or_retired_cookie_secrets` leaves them; otherwise the answer is a CookieReply with
the cookie value of a live secret. And the round trip completes: once an initiator has
taken the CookieReply to its InitHello, its retransmission is handled by `handle_msg` as
the first InitHello was, and answered, if at all, with a RespHello, for as long as the
responder's secret is live. -/
theorem cookie_check_sound_and_complete (hx : P.xaead.Correct) :
    (∀ (env : Env) (rx host : Bytes) (c : Ctx), 0 ≤ env.now → rx.headD 0 = MsgType.InitHello.toU8 →
      rx.length = Envelope.size (InitHello.size P) →
      (ValidCookie P ((activeOrRetiredCookieSecrets env).run c).state.srv env.now host rx →
        (handleMsgUnderLoad P env rx host).run c = (handleMsg P env rx).run ((activeOrRetiredCookieSecrets env).run c).state) ∧
      (¬ ValidCookie P ((activeOrRetiredCookieSecrets env).run c).state.srv env.now host rx →
        ∃ k : ServerCookieSecretPtr, k.Live ((activeOrRetiredCookieSecrets env).run c).state.srv env.now ∧
          (handleMsgUnderLoad P env rx host).run c =
            if CookieReply.size P ≤ c.tx.length then
              .ok ⟨none, some (CookieReply.size P)⟩ { ((activeOrRetiredCookieSecrets env).run c).state with
                tx := cookieReplyTx P env ((activeOrRetiredCookieSecrets env).run c).state.srv.spkm
                  (cookieValueOf P (((activeOrRetiredCookieSecrets env).run c).state.srv.cookieSecrets k.val).value host)
                  rx c.tx }
            else .error (.panic "range end index out of range for slice") ((activeOrRetiredCookieSecrets env).run c).state)) ∧
    (∀ (a a₁ a₂ a₃ b b₁ : Ctx) (p : PeerPtr) (q : Peer) (env₁ env₂ env₃ : Env) (host cr txa₂ txa₃ : Bytes)
        (len₁ len₂ : Nat) (r₁ r₂ : HandleMsgResult),
      a.srv.peer p.val = .ok q → q.spkt = b.srv.spkm →
      (initiateHandshake P env₁ p).run a = .ok len₁ a₁ →
      (handleMsgUnderLoad P env₂ (a₁.tx.take len₁) host).run b = .ok r₁ b₁ →
      Outcome.sent b₁.tx (.msg r₁) = some cr → cr.headD 0 = MsgType.CookieReply.toU8 →
      (handleMsg P env₃ cr).run { a₁ with tx := txa₂ } = .ok r₂ a₂ →
      (retransmitHandshake P p).run { a₂ with tx := txa₃ } = .ok len₂ a₃ →
      ∃ (k : ServerCookieSecretPtr) (q₂ : Peer) (hs₂ : InitiatorHandshake), a₂.srv.peer p.val = .ok q₂ ∧
        q₂.handshake = some hs₂ ∧ hs₂.cookieValue.value = cookieValueOf P (b₁.srv.cookieSecrets k.val).value host ∧
        ∀ (env₄ : Env) (b₂ : Ctx), (b₂.srv.cookieSecrets k.val).value = (b₁.srv.cookieSecrets k.val).value →
          k.Live b₂.srv env₄.now →
          (handleMsgUnderLoad P env₄ (a₃.tx.take len₂) host).run b₂ = (handleMsg P env₄ (a₁.tx.take len₁)).run b₂ ∧
          ∀ r b₃, (handleMsgUnderLoad P env₄ (a₃.tx.take len₂) host).run b₂ = .ok r b₃ →
            r = ⟨none, some (Envelope.size (RespHello.size P))⟩ ∧ b₃.tx.headD 0 = MsgType.RespHello.toU8) := by
  refine ⟨fun env rx host c h0 hty hlen => run_handleMsgUnderLoad_initHello h0 hty hlen, ?_⟩
  intro a a₁ a₂ a₃ b b₁ p q env₁ env₂ env₃ host cr txa₂ txa₃ len₁ len₂ r₁ r₂ hq hpk hinit hb₁ hcr hcrty ha₂ ha₃
  exact cookieReply_then_retransmission hx hq hpk hinit hb₁ hcr hcrty ha₂ ha₃

/-- The round trip between the two servers of a pair, under the mixing hash: the
responder, under load, answers the first InitHello with a CookieReply; the initiator takes
it and retransmits; the retransmission is handled as the first InitHello would be by
`handle_msg`, and answered with a RespHello. -/
theorem cookie_check_sound_and_complete_mixed :
    let n := Net.pair Primitives.mixed (Coins.constant 0) (Coins.constant 0) [21] [21] [42] [42] (zeros KEY_LEN)
    let a₁ := (initiateHandshake Primitives.mixed ⟨1, Coins.constant 1⟩ ⟨0⟩).run ⟨n.a, zeros MAX_MESSAGE_LEN⟩
    let rx := a₁.state.tx.take (Envelope.size (InitHello.size Primitives.mixed))
    let b₁ := (handleMsgUnderLoad Primitives.mixed ⟨2, Coins.constant 2⟩ rx [7]).run ⟨n.b, zeros MAX_MESSAGE_LEN⟩
    let cr := b₁.state.tx.take (CookieReply.size Primitives.mixed)
    let a₂ := (handleMsg Primitives.mixed ⟨3, Coins.constant 3⟩ cr).run { a₁.state with tx := zeros MAX_MESSAGE_LEN }
    let a₃ := (retransmitHandshake Primitives.mixed ⟨0⟩).run { a₂.state with tx := zeros MAX_MESSAGE_LEN }
    let rx' := a₃.state.tx.take (Envelope.size (InitHello.size Primitives.mixed))
    let b₂ : Ctx := { b₁.state with tx := zeros MAX_MESSAGE_LEN }
    Primitives.mixed.xaead.Correct ∧
      b₁.value? = some ⟨none, some (CookieReply.size Primitives.mixed)⟩ ∧
      (handleMsgUnderLoad Primitives.mixed ⟨4, Coins.constant 4⟩ rx' [7]).run b₂ =
        (handleMsg Primitives.mixed ⟨4, Coins.constant 4⟩ rx).run b₂ ∧
      ∃ b₃, (handleMsgUnderLoad Primitives.mixed ⟨4, Coins.constant 4⟩ rx' [7]).run b₂ =
        .ok ⟨none, some (Envelope.size (RespHello.size Primitives.mixed))⟩ b₃ ∧ b₃.tx.headD 0 = MsgType.RespHello.toU8 := by
  intro n a₁ rx b₁ cr a₂ a₃ rx' b₂
  -- the calls return, the reply is a CookieReply, and the one live secret is the second
  have hrun : a₁.value? = some (Envelope.size (InitHello.size Primitives.mixed)) ∧
      b₁.value? = some ⟨none, some (CookieReply.size Primitives.mixed)⟩ ∧ cr.headD 0 = MsgType.CookieReply.toU8 ∧
      a₂.value? = some ⟨none, none⟩ ∧ a₃.value? = some (Envelope.size (InitHello.size Primitives.mixed)) ∧
      (a₂.state.srv.peers[0]?.bind (·.handshake)).map (·.cookieValue.value) ≠
        some (cookieValueOf Primitives.mixed (b₁.state.srv.cookieSecrets 0).value [7]) ∧
      ServerCookieSecretPtr.Live ⟨1⟩ b₂.srv 4 ∧
      ((handleMsgUnderLoad Primitives.mixed ⟨4, Coins.constant 4⟩ rx' [7]).run b₂).value?.isSome := by
    decide +kernel +revert
  obtain ⟨h₁, h₂, h₃, h₄, h₅, hcv₀, hlive, hsome⟩ := hrun
  obtain ⟨k, q₂, hs₂, hpeer₂, hhs₂, hcv, hround⟩ := (cookie_check_sound_and_complete Aead.small_correct).2
    ⟨n.a, zeros MAX_MESSAGE_LEN⟩ a₁.state a₂.state a₃.state ⟨n.b, zeros MAX_MESSAGE_LEN⟩ b₁.state ⟨0⟩
    (Peer.new (zeros KEY_LEN) [42]) ⟨1, Coins.constant 1⟩ ⟨2, Coins.constant 2⟩ ⟨3, Coins.constant 3⟩ [7] cr
    (zeros MAX_MESSAGE_LEN) (zeros MAX_MESSAGE_LEN) _ _ _ _ rfl rfl (Result.eq_ok_of_value? h₁)
    (Result.eq_ok_of_value? h₂) rfl h₃ (Result.eq_ok_of_value? h₄) (Result.eq_ok_of_value? h₅)
  -- the initiator holds the cookie value of the live secret
  obtain rfl : k = ⟨1⟩ := by
    rcases k.eq_or_eq with rfl | rfl
    · exact absurd (by simp [CryptoServer.peer_eq_ok.1 hpeer₂, hhs₂, hcv]) hcv₀
    · rfl
  obtain ⟨hsame, hresp⟩ := hround ⟨4, Coins.constant 4⟩ b₂ (by dsimp only [b₂]) hlive
  obtain ⟨r, hr⟩ := Option.isSome_iff_exists.1 hsome
  obtain ⟨rfl, hty⟩ := hresp r _ (Result.eq_ok_of_value? hr)
  exact ⟨Aead.small_correct, h₂, hsame, _, Result.eq_ok_of_value? hr, hty⟩

end Rosenpass
