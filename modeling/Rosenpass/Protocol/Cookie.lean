/-
The cookie mechanism (`handle_msg_under_load`, `handle_cookie_reply`,
`apply_retransmission`), across both parties.

A responder under load answers an InitHello with a CookieReply unless its cookie field is
`H(cookie, v, bytes msg_type..cookie)[..16]` for the cookie value
`v = H(cookie_value, s, h)[..16]` of a live cookie secret `s` and the host `h`
(`run_handleMsgUnderLoad_initHello`). The secrets it tries are those
`active_or_retired_cookie_secrets` lists: the live ones, or, when none is, the older one
made anew (`run_activeOrRetiredCookieSecrets`).

The initiator keeps the InitHello it sent, stores the cookie value a CookieReply to it
opens to, and seals the copy it retransmits with the cookie of that value. So the
retransmission carries the right cookie, and agrees with the first InitHello on all the
cookie covers, which is all `handle_msg` reads of it (`handleMsg_congr_initHello`); the
round trip is `cookieReply_then_retransmission`.
-/
import Rosenpass.Protocol.Steps
import Rosenpass.Protocol.Schedule

namespace Rosenpass

open EStateM Buffer

/-- The cookie `handle_msg_under_load` expects of the InitHello `rx` from `host` under
the cookie secret `secret`. -/
def expectedCookie (P : Primitives) (secret host rx : Bytes) : Bytes :=
  (P.hash (P.hash P.cookie (cookieValueOf P secret host)) ((Envelope.cookieSpan (InitHello.size P)).get rx)).take 16

/-- A cookie secret the server still accepts cookies of: young or retired. -/
def ServerCookieSecretPtr.Live (k : ServerCookieSecretPtr) (srv : CryptoServer) (now : Timing) : Prop :=
  k.lifecycle srv now = .Young ∨ k.lifecycle srv now = .Retired

instance (k : ServerCookieSecretPtr) (srv : CryptoServer) (now : Timing) : Decidable (k.Live srv now) :=
  inferInstanceAs (Decidable (_ ∨ _))

/-- The InitHello `rx` from `host` carries the cookie of a live cookie secret. -/
def ValidCookie (P : Primitives) (srv : CryptoServer) (now : Timing) (host rx : Bytes) : Prop :=
  ∃ k : ServerCookieSecretPtr, k.Live srv now ∧
    (Envelope.cookie (InitHello.size P)).get rx = expectedCookie P (srv.cookieSecrets k.val).value host rx

/-- The secrets the loop of `handle_msg_under_load` visits: those up to the first `None`,
where it breaks. -/
def somePrefix {α : Type} : List (Option α) → List α
  | some a :: l => a :: somePrefix l
  | _ => []

theorem ServerCookieSecretPtr.eq_or_eq (k : ServerCookieSecretPtr) : k = ⟨0⟩ ∨ k = ⟨1⟩ := by
  rcases k with ⟨k⟩
  revert k
  decide

namespace CookieStore

variable {epoch now : Timing} {s : CookieStore}

theorem createdAt?_of_nonneg (h : 0 ≤ s.createdAt) : s.createdAt? = some s.createdAt := by
  simp [createdAt?, not_lt.2 h]

/-- A store made at a time not before zero is young until less than `EVENT_GRACE` of its
first epoch is left. -/
theorem lifecycle_eq_young_iff (he : 0 ≤ epoch) :
    s.lifecycle epoch now = .Young ↔ 0 ≤ s.createdAt ∧ EVENT_GRACE ≤ s.createdAt + epoch - now := by
  by_cases hc : 0 ≤ s.createdAt
  · simp only [lifecycle, Lifecycle.of, retireAt, dieAt, timeLeft, createdAt?_of_nonneg hc, Option.map_some,
      Option.any_some, Option.isSome_some, Bool.and_self, hasHappened, sub_zero, decide_eq_true_eq]
    -- a store past its first epoch is retired or dead
    split_ifs with hd hr
    · simp only [false_iff, not_and, not_le]
      intro _
      linarith
    · simp only [false_iff, not_and, not_le]
      exact fun _ => hr
    · simp only [true_iff]
      exact ⟨hc, not_lt.1 hr⟩
  · have hn : s.createdAt? = none := by simp [createdAt?, lt_of_not_ge hc]
    simp [lifecycle, Lifecycle.of, retireAt, dieAt, timeLeft, hn, hc]

end CookieStore

theorem CookieStore.lifecycle_randomize {epoch now : Timing} (s : CookieStore) (r : Rand) (h0 : 0 ≤ now)
    (he : EVENT_GRACE ≤ epoch) : (s.randomize r now).lifecycle epoch now = .Young := by
  have hg : (0 : Timing) ≤ EVENT_GRACE := by norm_num [EVENT_GRACE]
  rw [lifecycle_eq_young_iff (hg.trans he)]
  exact ⟨h0, by simpa [randomize] using he⟩

variable {env : Env} {c : Ctx}

theorem live_eq (k : ServerCookieSecretPtr) (srv : CryptoServer) (now : Timing) :
    (decide (k.lifecycle srv now = .Young) || decide (k.lifecycle srv now = .Retired)) = decide (k.Live srv now) := by
  exact (Bool.decide_or _ _).symm

theorem ServerCookieSecretPtr.lifecycle_updateCookieSecret_self (k : ServerCookieSecretPtr) (srv : CryptoServer)
    (f : CookieStore → CookieStore) (now : Timing) :
    k.lifecycle (srv.updateCookieSecret k.val f) now = (f (srv.cookieSecrets k.val)).lifecycle COOKIE_SECRET_EPOCH now := by
  simp [ServerCookieSecretPtr.lifecycle, CryptoServer.updateCookieSecret]

theorem ServerCookieSecretPtr.lifecycle_updateCookieSecret_of_ne {k j : ServerCookieSecretPtr} (h : k ≠ j)
    (srv : CryptoServer) (f : CookieStore → CookieStore) (now : Timing) :
    k.lifecycle (srv.updateCookieSecret j.val f) now = k.lifecycle srv now := by
  have hv : k.val ≠ j.val := fun hv => h (by cases k; cases j; simp_all)
  simp [ServerCookieSecretPtr.lifecycle, CryptoServer.updateCookieSecret, Function.update_of_ne hv]

theorem grace_le_cookieSecretEpoch : EVENT_GRACE ≤ COOKIE_SECRET_EPOCH := by
  norm_num [EVENT_GRACE, COOKIE_SECRET_EPOCH]

theorem ServerCookieSecretPtr.live_updateCookieSecret_of_ne {k j : ServerCookieSecretPtr} (h : k ≠ j)
    (srv : CryptoServer) (f : CookieStore → CookieStore) (now : Timing) :
    k.Live (srv.updateCookieSecret j.val f) now ↔ k.Live srv now := by
  simp only [Live, lifecycle_updateCookieSecret_of_ne h]

/-- A secret made anew at a time not before zero is young. -/
theorem ServerCookieSecretPtr.live_randomize (k : ServerCookieSecretPtr) (srv : CryptoServer) (r : Rand)
    {now : Timing} (h0 : 0 ≤ now) : k.Live (srv.updateCookieSecret k.val (·.randomize r now)) now :=
  .inl (by rw [lifecycle_updateCookieSecret_self, CookieStore.lifecycle_randomize _ _ h0 grace_le_cookieSecretEpoch])

theorem somePrefix_replicate_none {α : Type} (n : Nat) : somePrefix (List.replicate n (none : Option α)) = [] := by
  cases n <;> rfl

theorem run_activeOrRetiredCookieSecrets (env : Env) (c : Ctx) :
    ∃ l srv₁, (activeOrRetiredCookieSecrets env).run c = .ok l { c with srv := srv₁ } ∧ somePrefix l ≠ [] ∧
      (srv₁ = c.srv ∨ ∃ k f, srv₁ = c.srv.updateCookieSecret k f) ∧
      (0 ≤ env.now → ∀ k, k ∈ somePrefix l ↔ k.Live srv₁ env.now) ∧
      ((∃ k : ServerCookieSecretPtr, k.Live c.srv env.now) →
        srv₁ = c.srv ∧ ∀ k, k ∈ somePrefix l ↔ k.Live c.srv env.now) := by
  obtain ⟨l, c', hrun, htx, h⟩ := run_of_wp (x := activeOrRetiredCookieSecrets env) (s := c)
    (Q := fun l c' => c'.tx = c.tx ∧ somePrefix l ≠ [] ∧
      (c'.srv = c.srv ∨ ∃ k f, c'.srv = c.srv.updateCookieSecret k f) ∧
      (0 ≤ env.now → ∀ k, k ∈ somePrefix l ↔ k.Live c'.srv env.now) ∧
      ((∃ k : ServerCookieSecretPtr, k.Live c.srv env.now) →
        c'.srv = c.srv ∧ ∀ k, k ∈ somePrefix l ↔ k.Live c.srv env.now)) (by
    simp only [activeOrRetiredCookieSecrets, wp_bind, wp_getSrv, wp_ite, wp_pure, wp_modifySrv, live_eq]
    -- which secret is the younger, and which are live, decide the list
    by_cases ht : (c.srv.cookieSecrets 0).createdAt ≥ (c.srv.cookieSecrets 1).createdAt <;>
      by_cases hy : ServerCookieSecretPtr.Live ⟨0⟩ c.srv env.now <;>
      by_cases hz : ServerCookieSecretPtr.Live ⟨1⟩ c.srv env.now <;>
      simp only [ht, hy, hz, decide_true, decide_false, if_true, if_false, Bool.false_eq_true, List.nil_append,
        List.append_nil, List.cons_append, reduceCtorEq, List.length_cons, List.length_nil, somePrefix,
        ne_eq, not_false_eq_true, true_and, List.mem_cons, List.not_mem_nil, or_false, somePrefix_replicate_none,
        true_or]
    -- a live secret: the list holds the live ones, and nothing changes
    all_goals first
      | refine (fun hmem => ⟨fun _ => hmem, fun _ => hmem⟩) fun k => ?_
        rcases k.eq_or_eq with rfl | rfl <;> simp [hy, hz]
      | -- none is live: the older one is made anew, and is the one listed
        refine ⟨.inr ⟨_, _, rfl⟩, fun h0 k => ?_, fun hex => ?_⟩
        · rcases k.eq_or_eq with rfl | rfl <;> first
            | exact iff_of_false (by decide) (by rwa [ServerCookieSecretPtr.live_updateCookieSecret_of_ne (by decide)])
            | exact iff_of_true rfl (ServerCookieSecretPtr.live_randomize _ _ _ h0)
        · obtain ⟨k, hk⟩ := hex
          rcases k.eq_or_eq with rfl | rfl <;> contradiction)
  exact ⟨l, c'.srv, by rw [hrun, ← htx], h⟩

variable {P : Primitives}

/-- `handle_init_hello` reads the payload of the message and nothing else. -/
theorem handleInitHello_congr {env : Env} {rx rx' : Bytes}
    (h : ∀ f : Field, f.stop ≤ InitHello.size P → (Envelope.field f).get rx' = (Envelope.field f).get rx) :
    handleInitHello P env rx' = handleInitHello P env rx := by
  have hsidi := h InitHello.sidi (by simp [InitHello.sidi, InitHello.size, Field.stop]; omega)
  have hepki := h (InitHello.epki P) (by simp [InitHello.epki, InitHello.size, Field.stop]; omega)
  have hsctr := h (InitHello.sctr P) (by simp [InitHello.sctr, InitHello.size, Field.stop]; omega)
  have hpidic := h (InitHello.pidic P) (by simp [InitHello.pidic, InitHello.size, Field.stop]; omega)
  have hauth := h (InitHello.auth P) (by simp [InitHello.auth, InitHello.size, Field.stop])
  simp only [handleInitHello, hsidi, hepki, hsctr, hpidic, hauth]

/-- `handle_msg` reads an InitHello only through what its cookie covers. -/
theorem handleMsg_congr_initHello {env : Env} {rx rx' : Bytes} (hty : rx.headD 0 = MsgType.InitHello.toU8)
    (hlen : rx.length = Envelope.size (InitHello.size P)) (hlen' : rx'.length = rx.length)
    (hspan : (Envelope.cookieSpan (InitHello.size P)).get rx' = (Envelope.cookieSpan (InitHello.size P)).get rx) :
    handleMsg P env rx' = handleMsg P env rx := by
  have hkeep {g : Field} (hg : g.stop ≤ 4 + InitHello.size P + MAC_SIZE) : g.get rx' = g.get rx :=
    Field.get_eq_of_span rfl (by simpa [Envelope.cookieSpan, Field.stop] using hg) hspan
  have hhead : rx'.headD 0 = rx.headD 0 := by
    have h := hkeep (g := Envelope.msgType) (by simp [Envelope.msgType, Field.stop]; omega)
    cases rx with
    | nil =>
      simp only [List.length_nil, Envelope.size] at hlen
      omega
    | cons a l =>
      cases rx' with
      | nil => simp at hlen'
      | cons a' l' => simpa [Envelope.msgType, Field.get, slice] using h
  have hcheck : ∀ srv : CryptoServer, Envelope.checkSeal P srv (InitHello.size P) rx' =
      Envelope.checkSeal P srv (InitHello.size P) rx := by
    intro srv
    simp only [Envelope.checkSeal, hkeep (g := Envelope.mac (InitHello.size P)) (by simp [Envelope.mac, Field.stop]),
      hkeep (g := Envelope.macSpan (InitHello.size P)) (by simp [Envelope.macSpan, Field.stop])]
  have hih : handleInitHello P env rx' = handleInitHello P env rx :=
    handleInitHello_congr fun f hf => hkeep (by simp only [Envelope.field, Field.stop] at hf ⊢; omega)
  have hne : rx' ≠ [] ↔ rx ≠ [] := by
    rw [ne_eq, ne_eq, ← List.length_eq_zero_iff, ← List.length_eq_zero_iff, hlen']
  simp only [handleMsg, hhead, hty, MsgType.tryFrom_toU8, refNew, ensure, hne, hlen', hcheck, hih]

/-- The InitHello `rx` carries the cookie of the cookie secret `k` of `srv` for `host`. -/
def CarriesCookie (P : Primitives) (srv : CryptoServer) (host rx : Bytes) (k : ServerCookieSecretPtr) : Prop :=
  (Envelope.cookie (InitHello.size P)).get rx = expectedCookie P (srv.cookieSecrets k.val).value host rx

/-- A pass of the loop over a secret whose cookie the message does not carry: the first
cookie value it computes stays the active one, and the message's mac and session id are
kept for the reply. -/
def CookieScan.visit (P : Primitives) (srv : CryptoServer) (rx host : Bytes) (st : CookieScan)
    (k : ServerCookieSecretPtr) : CookieScan :=
  { activeCookieValue := some (st.activeCookieValue.getD (cookieValueOf P (srv.cookieSecrets k.val).value host)),
    rxMac := (Envelope.mac (InitHello.size P)).get rx,
    rxSid := (Envelope.field InitHello.sidi).get rx }

theorem CookieScan.foldl_visit_cons (srv : CryptoServer) (rx host : Bytes) :
    ∀ (ks : List ServerCookieSecretPtr) (k : ServerCookieSecretPtr) (st : CookieScan),
      (k :: ks).foldl (visit P srv rx host) st =
        { activeCookieValue := some (st.activeCookieValue.getD (cookieValueOf P (srv.cookieSecrets k.val).value host)),
          rxMac := (Envelope.mac (InitHello.size P)).get rx,
          rxSid := (Envelope.field InitHello.sidi).get rx }
  | [], _, _ => rfl
  | k' :: ks, k, st => by
    rw [List.foldl_cons, foldl_visit_cons srv rx host ks k' (visit P srv rx host st k)]
    rfl

theorem memcmp_cookie_iff (srv : CryptoServer) (host rx : Bytes) (k : ServerCookieSecretPtr) :
    ConstantTime.memcmp ((Envelope.cookie (InitHello.size P)).get rx)
      ((P.hash (P.hash P.cookie (cookieValueOf P (srv.cookieSecrets k.val).value host))
        ((Envelope.cookieSpan (InitHello.size P)).get rx)).take 16) = true ↔ CarriesCookie P srv host rx k := by
  simp [ConstantTime.memcmp, CarriesCookie, expectedCookie]

section Scan

variable {env : Env} {rx host : Bytes} {c : Ctx} {Q : HandleMsgResult ⊕ CookieScan → Ctx → Prop}
  {E : Fault → Ctx → Prop}

/-- The loop hands the message to `handle_msg` once a secret it visits has its cookie. -/
theorem wp_scanCookieSecrets_of_carries (hlen : rx.length = Envelope.size (InitHello.size P))
    (hmsg : wp (handleMsg P env rx) (fun r => Q (.inl r)) E c) :
    ∀ (l : List (Option ServerCookieSecretPtr)) (st : CookieScan),
      (∃ k ∈ somePrefix l, CarriesCookie P c.srv host rx k) → wp (scanCookieSecrets P env rx host l st) Q E c
  | [], _, ⟨_, hk, _⟩ | none :: _, _, ⟨_, hk, _⟩ => absurd hk List.not_mem_nil
  | some k' :: rest, st, ⟨k, hk, hc⟩ => by
    simp only [scanCookieSecrets, wp_bind, wp_getSrv, wp_refNew, hlen, if_true, wp_ite, wp_pure]
    split_ifs with hk'
    · exact hmsg
    · -- the secret that has the cookie is a later one
      have hne : k ≠ k' := by
        rintro rfl
        exact hk' ((memcmp_cookie_iff c.srv host rx k).2 hc)
      refine wp_scanCookieSecrets_of_carries hlen hmsg rest _ ⟨k, ?_, hc⟩
      simpa [somePrefix, hne] using hk

/-- A loop that finds no cookie ends with the cookie value of the first secret it visits. -/
theorem wp_scanCookieSecrets_of_none (hlen : rx.length = Envelope.size (InitHello.size P)) :
    ∀ (l : List (Option ServerCookieSecretPtr)) (st : CookieScan),
      (∀ k ∈ somePrefix l, ¬ CarriesCookie P c.srv host rx k) →
      Q (.inr ((somePrefix l).foldl (CookieScan.visit P c.srv rx host) st)) c →
      wp (scanCookieSecrets P env rx host l st) Q E c
  | [], _, _, hQ | none :: _, _, _, hQ => hQ
  | some k :: rest, st, hno, hQ => by
    simp only [scanCookieSecrets, wp_bind, wp_getSrv, wp_refNew, hlen, if_true, wp_ite, wp_pure]
    rw [if_neg (fun h => hno k (List.mem_cons_self ..) ((memcmp_cookie_iff c.srv host rx k).1 h))]
    exact wp_scanCookieSecrets_of_none hlen rest _ (fun k' hk' => hno k' (List.mem_cons_of_mem _ hk')) hQ

end Scan

/-- The CookieReply `handle_msg_under_load` writes over `tx` for the InitHello `rx`: the
cookie value, encrypted under the key of the server's public key `spkm` with the
InitHello's mac as additional data, beside the InitHello's session id. -/
def cookieReplyTx (P : Primitives) (env : Env) (spkm cookieValue rx tx : Bytes) : Bytes :=
  (CookieReply.padding P).set (draw (CookieReply.padding P).len env.coins.padding)
    (CookieReply.cookieEncrypted.set
      (P.xaeadEncrypt (P.hash P.cookieKey spkm) (draw XAEAD_NONCE_LEN env.coins.nonce)
        ((Envelope.mac (InitHello.size P)).get rx) cookieValue)
      (CookieReply.sid.set ((Envelope.field InitHello.sidi).get rx)
        (CookieReply.msgType.set [MsgType.CookieReply.toU8] tx)))

section UnderLoad

variable {env : Env} {rx host : Bytes} {c c₁ : Ctx} {l : List (Option ServerCookieSecretPtr)}
  {Q : HandleMsgResult → Ctx → Prop} {E : Fault → Ctx → Prop}

/-- `handle_msg_under_load` of an InitHello of the right size, once
`active_or_retired_cookie_secrets` has listed `l` and left `c₁`: `handle_msg` if a secret
of the list has the message's cookie, and otherwise a CookieReply with the cookie value
of the first. -/
theorem wp_handleMsgUnderLoad_initHello (hty : rx.headD 0 = MsgType.InitHello.toU8)
    (hlen : rx.length = Envelope.size (InitHello.size P))
    (hA : (activeOrRetiredCookieSecrets env).run c = .ok l c₁) (hne : somePrefix l ≠ [])
    (hvalid : (∃ k ∈ somePrefix l, CarriesCookie P c₁.srv host rx k) → wp (handleMsg P env rx) Q E c₁)
    (hreply : (∀ k ∈ somePrefix l, ¬ CarriesCookie P c₁.srv host rx k) → ∀ k ks, somePrefix l = k :: ks →
      if CookieReply.size P ≤ c₁.tx.length then
        Q ⟨none, some (CookieReply.size P)⟩
          { c₁ with tx := cookieReplyTx P env c₁.srv.spkm (cookieValueOf P (c₁.srv.cookieSecrets k.val).value host) rx c₁.tx }
      else E (.panic "range end index out of range for slice") c₁) :
    wp (handleMsgUnderLoad P env rx host) Q E c := by
  have hrx0 : rx[0]? = some MsgType.InitHello.toU8 := by
    cases rx with
    | nil =>
      simp only [List.length_nil, Envelope.size] at hlen
      omega
    | cons a l => simpa using hty
  simp only [handleMsgUnderLoad, wp_bind, hrx0, wp_pure, MsgType.tryFrom_toU8]
  rw [wp_eq_of_run_ok hA]
  by_cases hv : ∃ k ∈ somePrefix l, CarriesCookie P c₁.srv host rx k
  · exact wp_scanCookieSecrets_of_carries hlen (by simpa using hvalid hv) l _ hv
  · simp only [not_exists, not_and] at hv
    obtain ⟨k, ks, hks⟩ : ∃ k ks, somePrefix l = k :: ks := List.exists_cons_of_ne_nil hne
    apply wp_scanCookieSecrets_of_none hlen l _ hv
    have h := hreply hv k ks hks
    rw [hks, CookieScan.foldl_visit_cons]
    simp only [Option.getD_none, wp_bind, wp_getSrv, wp_truncatingCastInto, wp_modifyTx, wp_pure]
    exact h

/-- The secrets `active_or_retired_cookie_secrets` lists are the live ones: a cookie is
valid exactly when a listed secret has it. -/
theorem validCookie_iff {srv : CryptoServer} {now : Timing} (h : ∀ k, k ∈ somePrefix l ↔ k.Live srv now) :
    ValidCookie P srv now host rx ↔ ∃ k ∈ somePrefix l, CarriesCookie P srv host rx k := by
  simp only [ValidCookie, h, CarriesCookie]

/-- Under load, an InitHello of the right size is handed to `handle_msg` exactly when it
carries the cookie of a live cookie secret, as `active_or_retired_cookie_secrets` leaves
them; otherwise the answer is a CookieReply with the cookie value of a live secret, or the
panic of a transmit buffer too short for one. -/
theorem run_handleMsgUnderLoad_initHello (h0 : 0 ≤ env.now) (hty : rx.headD 0 = MsgType.InitHello.toU8)
    (hlen : rx.length = Envelope.size (InitHello.size P)) :
    (ValidCookie P ((activeOrRetiredCookieSecrets env).run c).state.srv env.now host rx →
      (handleMsgUnderLoad P env rx host).run c = (handleMsg P env rx).run ((activeOrRetiredCookieSecrets env).run c).state) ∧
    (¬ ValidCookie P ((activeOrRetiredCookieSecrets env).run c).state.srv env.now host rx →
      ∃ k : ServerCookieSecretPtr, k.Live ((activeOrRetiredCookieSecrets env).run c).state.srv env.now ∧
        (handleMsgUnderLoad P env rx host).run c =
          if CookieReply.size P ≤ c.tx.length then
            .ok ⟨none, some (CookieReply.size P)⟩ { ((activeOrRetiredCookieSecrets env).run c).state with
              tx := cookieReplyTx P env ((activeOrRetiredCookieSecrets env).run c).state.srv.spkm
                (cookieValueOf P (((activeOrRetiredCookieSecrets env).run c).state.srv.cookieSecrets k.val).value host)
                rx c.tx }
          else .error (.panic "range end index out of range for slice") ((activeOrRetiredCookieSecrets env).run c).state) := by
  obtain ⟨l, srv₁, hA, hne, -, hlive, -⟩ := run_activeOrRetiredCookieSecrets env c
  rw [hA, Result.state_ok, validCookie_iff (hlive h0)]
  refine ⟨fun hv => EStateM.run_eq_of_wp ?_, fun hv => ?_⟩
  · exact wp_handleMsgUnderLoad_initHello hty hlen hA hne (fun _ => EStateM.wp_run _ _)
      (fun hno => absurd hv (by simpa using hno))
  · obtain ⟨k, ks, hks⟩ := List.exists_cons_of_ne_nil hne
    refine ⟨k, (hlive h0 k).1 (by simp [hks]), EStateM.run_eq_of_wp ?_⟩
    refine wp_handleMsgUnderLoad_initHello hty hlen hA hne (fun h => absurd h hv) fun _ k' ks' hks' => ?_
    obtain ⟨rfl, rfl⟩ := List.cons.inj (hks.symm.trans hks')
    split_ifs <;> rfl

end UnderLoad

section Insert

variable {c : Ctx} {Q : Unit → Ctx → Prop}

/-- `IniHsPtr::insert` stores the handshake, and leaves its id pointing at the peer or out
of the index; it fails only where another peer holds the id. -/
theorem IniHsPtr.wp_insert {p : IniHsPtr} {hs : InitiatorHandshake} {q : Peer} (hq : c.srv.peer p.peer.val = .ok q)
    (h : ∀ srv', srv'.peer p.peer.val = .ok { q with handshake := some hs, initiationRequested := false } →
      (srv'.index (.Sid hs.core.sidi) = some p.peer.val ∨ srv'.index (.Sid hs.core.sidi) = none) →
      Q () { c with srv := srv' }) :
    wp (p.insert hs) Q (fun _ _ => True) c := by
  simp only [IniHsPtr.insert, IniHsPtr.take, wp_bind, wp_registerSession]
  -- once the id points at the peer, the old handshake is taken and the new one stored
  have hstore : ∀ srv : CryptoServer, srv.peer p.peer.val = .ok q →
      srv.index (.Sid hs.core.sidi) = some p.peer.val →
      wp (takeSlot (·.handshake) (fun q => { q with handshake := none }) (·.core.sidi) p.peer)
        (fun _ s' => wp (p.peer.modify fun q => { q with initiationRequested := false, handshake := some hs })
          Q (fun _ _ => True) s') (fun _ _ => True) { c with srv := srv } := by
    intro srv hq' hidx
    rw [wp_takeSlot hq']
    -- the old handshake's id leaves the index unless the peer still uses it
    have hpeer : ∀ srv' : CryptoServer, srv'.peer p.peer.val = .ok q →
        ((srv'.updatePeer p.peer.val fun q => { q with handshake := none }).updatePeer p.peer.val
          fun q => { q with initiationRequested := false, handshake := some hs }).peer p.peer.val =
          .ok { q with handshake := some hs, initiationRequested := false } := by
      intro srv' h'
      simp [h', Except.map]
    have hindex : ∀ srv' : CryptoServer, (srv'.updatePeer p.peer.val fun q => { q with handshake := none }).index =
        srv'.index := fun _ => rfl
    split
    · simp only [wp_PeerPtr_modify, CryptoServer.peer_updatePeer, if_true, hq', Except.map]
      exact h _ (hpeer srv hq') (.inl hidx)
    · split_ifs
      · simp only [wp_PeerPtr_modify, CryptoServer.peer_updatePeer, if_true, hq', Except.map]
        exact h _ (hpeer srv hq') (.inl hidx)
      · simp only [wp_PeerPtr_modify, CryptoServer.peer_updatePeer, CryptoServer.peer_setSid, if_true, hq',
          Except.map]
        refine h _ (hpeer _ (by simpa using hq')) ?_
        simp only [CryptoServer.updatePeer, Function.update_apply, IndexKey.Sid.injEq]
        split_ifs
        · exact .inr rfl
        · exact .inl hidx
  split
  · split_ifs with hp
    exact hstore c.srv hq (by rw [‹c.srv.index _ = _›, hp])
  · exact hstore _ (by simpa using hq) (by simp)

end Insert

/-- The fields of an InitHello, stored in the order `handle_initiation` stores them: the
session id stays where it was put, and the buffer keeps its length. -/
theorem initHello_fill {tx sidi epki sctr pidic auth : Bytes} (hi : sidi.length = 4)
    (he : epki.length = P.ephemeralKem.PK_LEN) (hs : sctr.length = P.staticKem.CT_LEN)
    (hp : pidic.length = TAG_LEN + 32) (ha : auth.length = TAG_LEN)
    (htx : Envelope.size (InitHello.size P) ≤ tx.length) :
    let tx' := (Envelope.field (InitHello.auth P)).set auth ((Envelope.field (InitHello.pidic P)).set pidic
      ((Envelope.field (InitHello.sctr P)).set sctr ((Envelope.field (InitHello.epki P)).set epki
        ((Envelope.field InitHello.sidi).set sidi tx))))
    tx'.length = tx.length ∧ (Envelope.field InitHello.sidi).get tx' = sidi := by
  have hfit : Field.Fits tx.length [(Envelope.field InitHello.sidi, sidi), (Envelope.field (InitHello.epki P), epki),
      (Envelope.field (InitHello.sctr P), sctr), (Envelope.field (InitHello.pidic P), pidic),
      (Envelope.field (InitHello.auth P), auth)] := by
    simp only [Envelope.size, InitHello.size] at htx
    intro w hw
    simp only [List.mem_cons, List.not_mem_nil, or_false] at hw
    rcases hw with rfl | rfl | rfl | rfl | rfl <;>
      simp only [Envelope.field, InitHello.sidi, InitHello.epki, InitHello.sctr, InitHello.pidic, InitHello.auth,
        Field.stop, hi, he, hs, hp, ha, true_and] <;> omega
  refine ⟨Field.length_setAll hfit, Field.get_setAll_of_last [] hfit ?_⟩
  simp only [List.mem_cons, List.not_mem_nil, or_false, forall_eq_or_imp, forall_eq, Envelope.field,
    InitHello.sidi, InitHello.epki, InitHello.sctr, InitHello.pidic, InitHello.auth, Field.Disjoint, Field.stop]
  omega

section Initiation

variable {env : Env} {c : Ctx}

/-- `handle_initiation` stores a new handshake in the peer, whose id it writes in the
InitHello; the id points at the peer or is out of the index. -/
theorem wp_handleInitiation {p : PeerPtr} {q : Peer} {Q : PeerPtr → Ctx → Prop} (hq : c.srv.peer p.val = .ok q)
    (h : ∀ c' hs, c'.srv.peer p.val = .ok { q with handshake := some hs, initiationRequested := false } →
      (c'.srv.index (.Sid hs.core.sidi) = some p.val ∨ c'.srv.index (.Sid hs.core.sidi) = none) →
      hs.txBuf = zeros MAX_MESSAGE_LEN →
      (Envelope.size (InitHello.size P) ≤ c.tx.length →
        c'.tx.length = c.tx.length ∧ (Envelope.field InitHello.sidi).get c'.tx = hs.core.sidi) →
      Q p c') :
    wp (handleInitiation P env p) Q (fun _ _ => True) c := by
  simp only [handleInitiation, wp_bind, wp_PeerPtr_get, hq, wp_getSrv, wp_writePayload]
  apply IniHsPtr.wp_insert (by simpa using hq)
  intro srv' hpeer hidx
  simp only [wp_pure]
  refine h _ _ hpeer hidx rfl fun htx => ?_
  exact initHello_fill (by simp [SESSION_ID_LEN]) (P.ephemeralKem.keygen_length _).2
    (by simp) (by simp [CryptoServer.pidm, KEY_LEN, TAG_LEN]) (by simp) htx

/-- A change to the peer's handshake, when it has one. -/
theorem IniHsPtr.wp_modifyHandshake {p : IniHsPtr} {q : Peer} {hs : InitiatorHandshake}
    {f : InitiatorHandshake → InitiatorHandshake} {Q : Unit → Ctx → Prop} {E : Fault → Ctx → Prop}
    (hq : c.srv.peer p.peer.val = .ok q) (hhs : q.handshake = some hs)
    (h : Q () { c with srv := c.srv.updatePeer p.peer.val fun q => { q with handshake := some (f hs) } }) :
    wp (p.modifyHandshake f) Q E c := by
  simp only [IniHsPtr.modifyHandshake, wp_bind, wp_PeerPtr_get, hq, hhs, wp_PeerPtr_modify]
  exact h

/-- `initiate_handshake` sends an InitHello, which it keeps in the new handshake for
retransmission, with the handshake's session id in its payload. -/
theorem wp_initiateHandshake {p : PeerPtr} {q : Peer} {Q : Nat → Ctx → Prop} (hq : c.srv.peer p.val = .ok q)
    (h : ∀ c' hs, c'.tx.headD 0 = MsgType.InitHello.toU8 → Envelope.size (InitHello.size P) ≤ c'.tx.length →
      c'.srv.peer p.val = .ok { q with handshake := some hs, initiationRequested := false } →
      (c'.srv.index (.Sid hs.core.sidi) = some p.val ∨ c'.srv.index (.Sid hs.core.sidi) = none) →
      (Envelope.field InitHello.sidi).get c'.tx = hs.core.sidi →
      hs.txBuf = cpyMin (c'.tx.take (Envelope.size (InitHello.size P))) (zeros MAX_MESSAGE_LEN) →
      hs.txLen = Envelope.size (InitHello.size P) →
      Q (Envelope.size (InitHello.size P)) c') :
    wp (initiateHandshake P env p) Q (fun _ _ => True) c := by
  simp only [initiateHandshake, wp_bind, wp_truncatingCastInto]
  split_ifs with htx
  apply wp_handleInitiation hq
  intro c₁ hs hpeer hidx hbuf hfill
  obtain ⟨hlen₁, hsidi₁⟩ := hfill htx
  apply wp_sealAndCommitMsg (fun _ _ _ => trivial)
  intro tx' hty hsealed
  obtain ⟨hl, -, hpl⟩ := hsealed (hlen₁ ▸ htx)
  simp only [wp_getCtx, IniHsPtr.storeMsgForRetransmission, IniHsPtr.registerRetransmission, wp_bind]
  -- the message is kept, then its retransmission scheduled
  apply IniHsPtr.wp_modifyHandshake (by simpa using hpeer) rfl
  apply IniHsPtr.wp_modifyHandshake (by simp [hpeer, Except.map]; rfl) rfl
  simp only [wp_pure]
  refine h _ _ hty (hl ▸ hlen₁ ▸ htx) (by simp [hpeer, Except.map]; rfl) ?_ ?_ (by simp [hbuf]) ?_
  · simpa [CryptoServer.updatePeer] using hidx
  · rw [hpl _ (by simp [InitHello.sidi, InitHello.size, Field.stop]; omega), hsidi₁]
  · simp only [hl, hlen₁]
    omega

end Initiation

section Reply

/-- The handshake once `handle_cookie_reply` has stored the cookie value `v` at `now` and
made the retransmission due. -/
def InitiatorHandshake.withCookie (hs : InitiatorHandshake) (v : Bytes) (now : Timing) : InitiatorHandshake :=
  { hs with cookieValue := hs.cookieValue.update v now, txRetryAt := now, txCount := hs.txCount + 1 }

variable {env : Env} {rx : Bytes} {c : Ctx}

/-- `handle_msg` of a CookieReply of the right size is `handle_cookie_reply`, with no answer. -/
theorem wp_handleMsg_cookieReply {Q : HandleMsgResult → Ctx → Prop} {E : Fault → Ctx → Prop}
    (hty : rx.headD 0 = MsgType.CookieReply.toU8) (hlen : rx.length = CookieReply.size P)
    (h : wp (handleCookieReply P env rx) (fun _ c' => Q ⟨none, none⟩ c') E c) :
    wp (handleMsg P env rx) Q E c := by
  have hne : rx ≠ [] := by
    rintro rfl
    simp only [List.length_nil, CookieReply.size, Envelope.size] at hlen
    omega
  simp only [handleMsg, wp_bind, wp_ensure, wp_getSrv, hty, MsgType.tryFrom_toU8, wp_refNew, hlen, wp_pure]
  rw [if_pos hne]
  simpa using h

/-- `handle_cookie_reply` of a reply whose session id is that of the peer's handshake, which
the index points at the peer and which keeps an InitHello: the cookie value becomes what
the reply opens to under the key of the peer's public key, with the InitHello's mac as
additional data, and the retransmission is due at once. -/
theorem wp_handleCookieReply {p : PeerPtr} {q : Peer} {hs : InitiatorHandshake} {Q : PeerPtr → Ctx → Prop}
    (hq : c.srv.peer p.val = .ok q) (hhs : q.handshake = some hs)
    (hidx : c.srv.index (.Sid (CookieReply.sid.get rx)) = some p.val) (hsid : hs.core.sidi = CookieReply.sid.get rx)
    (hty : hs.txBuf.headD 0 = MsgType.InitHello.toU8)
    (hQ : ∀ v c', Envelope.size (InitHello.size P) ≤ hs.txBuf.length → P.xaeadDecrypt (P.hash P.cookieKey q.spkt) ((Envelope.mac (InitHello.size P)).get hs.txBuf)
        (CookieReply.cookieEncrypted.get rx) = .ok v → c'.tx = c.tx →
      c'.srv.peer p.val = .ok { q with handshake := some (hs.withCookie v env.now) } → Q p c') :
    wp (handleCookieReply P env rx) Q (fun _ _ => True) c := by
  have hfirst : hs.txBuf[0]? = some MsgType.InitHello.toU8 ∨ hs.txBuf = [] := by
    cases h : hs.txBuf with
    | nil => exact .inr rfl
    | cons a l => exact .inl (by simpa [h] using hty)
  have hlookup : c.srv.lookupHandshake (CookieReply.sid.get rx) = .ok (some p.hs) := by
    simp [CryptoServer.lookupHandshake_of_index hidx hq, hhs, hsid]
  simp only [handleCookieReply, wp_bind, wp_getSrv, CryptoServer.lookupSession_of_index hidx hq, wp_liftE]
  -- the session or the handshake with the id leads to the peer
  split_ifs <;>
    simp only [hlookup, wp_liftE, Option.map_some, PeerPtr.session_peer, PeerPtr.hs_peer, wp_pure, wp_bind,
      wp_PeerPtr_get, hq, hhs]
  -- the mac is that of the InitHello the handshake keeps, when the buffer holds one
  all_goals
    rcases hfirst with hfirst | hnil
    · simp only [hfirst, MsgType.tryFrom_toU8, wp_pure, wp_bind, wp_liftE, slicePrefix]
      split_ifs with hbuf
      · simp only [Field.get_take _ (Envelope.mac_stop_le (InitHello.size P))]
        -- the cookie value is stamped before the tag is checked; only a tag that verifies goes on
        split
        · next v hdec =>
          simp only [wp_bind, wp_PeerPtr_modify, hq, IniHsPtr.registerImmediateRetransmission]
          apply IniHsPtr.wp_modifyHandshake (by simp [hq, Except.map]; rfl) (by simp [hhs]; rfl)
          exact hQ v _ hbuf hdec rfl (by simp [hq, Except.map, InitiatorHandshake.withCookie])
        · simp [wp_bind, wp_PeerPtr_modify, hq]
      · trivial
    · simp [hnil]

/-- A CookieReply whose session id the index does not hold is refused. -/
theorem wp_handleCookieReply_of_unindexed (h : c.srv.index (.Sid (CookieReply.sid.get rx)) = none) :
    wp (handleCookieReply P env rx) (fun _ _ => False) (fun _ _ => True) c := by
  simp [handleCookieReply, CryptoServer.lookupSession, CryptoServer.lookupHandshake, h]

theorem headD_of_msgType_get {b : Bytes} {x : UInt8} (h : Envelope.msgType.get b = [x]) : b.headD 0 = x := by
  cases b with
  | nil => simp [Envelope.msgType, Field.get, slice] at h
  | cons a l => simpa [Envelope.msgType, Field.get, slice] using h

/-- What the initiator reads of the CookieReply `handle_msg_under_load` sends: its type,
the InitHello's session id, and the encrypted cookie value. -/
theorem cookieReplyTx_sent (env : Env) (spkm : Bytes) {cv tx : Bytes} (hcv : cv.length = COOKIE_SIZE)
    (hrx : rx.length = Envelope.size (InitHello.size P)) (htx : CookieReply.size P ≤ tx.length) :
    let cr := (cookieReplyTx P env spkm cv rx tx).take (CookieReply.size P)
    cr.length = CookieReply.size P ∧ cr.headD 0 = MsgType.CookieReply.toU8 ∧
      CookieReply.sid.get cr = (Envelope.field InitHello.sidi).get rx ∧
      CookieReply.cookieEncrypted.get cr = P.xaeadEncrypt (P.hash P.cookieKey spkm)
        (draw XAEAD_NONCE_LEN env.coins.nonce) ((Envelope.mac (InitHello.size P)).get rx) cv := by
  intro cr
  -- the reply is as long as an InitHello, which is longer than its inner part
  have hN : CookieReply.innerSize ≤ CookieReply.size P := by
    simp only [CookieReply.size, CookieReply.innerSize, Envelope.size, InitHello.size, MAC_SIZE, COOKIE_SIZE, TAG_LEN,
      XAEAD_NONCE_LEN]
    omega
  have hsz : CookieReply.size P = Envelope.size (InitHello.size P) := rfl
  have h64 : 64 ≤ CookieReply.size P := by
    simpa [CookieReply.innerSize, XAEAD_NONCE_LEN, COOKIE_SIZE, TAG_LEN] using hN
  have hfit : Field.Fits tx.length [(CookieReply.msgType, [MsgType.CookieReply.toU8]),
      (CookieReply.sid, (Envelope.field InitHello.sidi).get rx),
      (CookieReply.cookieEncrypted, P.xaeadEncrypt (P.hash P.cookieKey spkm) (draw XAEAD_NONCE_LEN env.coins.nonce)
        ((Envelope.mac (InitHello.size P)).get rx) cv),
      (CookieReply.padding P, draw (CookieReply.padding P).len env.coins.padding)] := by
    simp only [CookieReply.innerSize] at hN
    intro w hw
    simp only [List.mem_cons, List.not_mem_nil, or_false] at hw
    rcases hw with rfl | rfl | rfl | rfl
    · simp only [CookieReply.msgType, Field.stop, List.length_singleton, true_and]
      omega
    · refine ⟨Field.length_get _ ?_, ?_⟩ <;>
        simp only [CookieReply.sid, Envelope.field, InitHello.sidi, Field.stop, hrx, Envelope.size, InitHello.size] <;>
        omega
    · simp only [CookieReply.cookieEncrypted, Primitives.length_xaeadEncrypt, hcv, Field.stop, draw,
        List.length_map, List.length_range, true_and]
      omega
    · simp only [CookieReply.padding, Field.stop, draw, List.length_map, List.length_range, true_and,
        CookieReply.innerSize, ← hsz]
      omega
  have hfull : (cookieReplyTx P env spkm cv rx tx).length = tx.length := Field.length_setAll hfit
  have hin {f : Field} (hf : f.stop ≤ CookieReply.size P) : f.get cr = f.get (cookieReplyTx P env spkm cv rx tx) :=
    Field.get_take f hf
  refine ⟨by simp [cr, hfull, htx], headD_of_msgType_get ?_, ?_, ?_⟩
  · rw [hin (by simp only [Envelope.msgType, Field.stop]; omega)]
    exact Field.get_setAll_of_last [] hfit (by simp [CookieReply.msgType, CookieReply.sid, CookieReply.cookieEncrypted,
      CookieReply.padding, CookieReply.innerSize, Field.Disjoint, Field.stop, XAEAD_NONCE_LEN, COOKIE_SIZE, TAG_LEN])
  · rw [hin (by simp only [CookieReply.sid, Field.stop]; omega)]
    exact Field.get_setAll_of_last [_] hfit (by simp [CookieReply.sid, CookieReply.cookieEncrypted,
      CookieReply.padding, CookieReply.innerSize, Field.Disjoint, Field.stop, XAEAD_NONCE_LEN, COOKIE_SIZE, TAG_LEN])
  · rw [hin (by simp only [CookieReply.cookieEncrypted, Field.stop, XAEAD_NONCE_LEN, COOKIE_SIZE, TAG_LEN]; omega)]
    exact Field.get_setAll_of_last [_, _] hfit (by simp [CookieReply.cookieEncrypted,
      CookieReply.padding, CookieReply.innerSize, Field.Disjoint, Field.stop, XAEAD_NONCE_LEN, COOKIE_SIZE, TAG_LEN])

end Reply

section Retransmission

variable {c : Ctx}

theorem length_cpyMin (src dst : Bytes) : (cpyMin src dst).length = dst.length := by
  simp only [cpyMin, List.length_append, List.length_take, List.length_drop]
  omega

theorem take_cpyMin {src dst : Bytes} (h : src.length ≤ dst.length) : (cpyMin src dst).take src.length = src := by
  simp [cpyMin, Nat.min_eq_left h]

/-- The envelope `tx` with the cookie of the cookie value `cv` over what the cookie covers:
what `seal_cookie` writes. -/
def Envelope.withCookie (P : Primitives) (n : Nat) (cv tx : Bytes) : Bytes :=
  (Envelope.cookie n).set ((P.hash (P.hash P.cookie cv) ((Envelope.cookieSpan n).get tx)).take 16) tx

/-- `retransmit_handshake` copies the message the handshake keeps to the front of the
transmit buffer and seals it again, as an InitHello, with the handshake's cookie value. -/
theorem wp_retransmitHandshake {p : PeerPtr} {q : Peer} {hs : InitiatorHandshake} {Q : Nat → Ctx → Prop}
    (hq : c.srv.peer p.val = .ok q) (hhs : q.handshake = some hs)
    (h : hs.txLen ≤ hs.txBuf.length → Envelope.size (InitHello.size P) ≤ c.tx.length →
      Q hs.txLen
        { c with tx := Envelope.withCookie P (InitHello.size P) hs.cookieValue.value (cpyMin (hs.txBuf.take hs.txLen) c.tx) }) :
    wp (retransmitHandshake P p) Q (fun _ _ => True) c := by
  simp only [retransmitHandshake, IniHsPtr.applyRetransmission, Envelope.sealCookie, wp_bind, wp_PeerPtr_get,
    PeerPtr.hs_peer, hq, hhs, wp_pure, wp_liftE, slicePrefix]
  -- the kept message must fit the handshake's buffer, and an InitHello the transmit buffer
  split_ifs with hlen
  · simp only [wp_modifyTx, wp_truncatingCastInto, length_cpyMin]
    split_ifs with htx
    simp only [wp_bind, hq, hhs, wp_getCtx, wp_modifyTx]
    exact h hlen htx
  · trivial

end Retransmission

section Exchange

theorem headD_cpyMin {src dst : Bytes} (hs : src ≠ []) (hd : dst ≠ []) : (cpyMin src dst).headD 0 = src.headD 0 := by
  cases src with
  | nil => contradiction
  | cons a l =>
    cases dst with
    | nil => contradiction
    | cons b m => simp [cpyMin, Nat.succ_min_succ]

/-- The retransmission of `msg` copied over `dst` and sealed with the cookie of `cv`: a
message of the same size that agrees with `msg` on all the cookie covers, and whose
cookie is that of `cv` over it. -/
theorem withCookie_cpyMin (cv : Bytes) {n : Nat} {msg dst : Bytes} (hmsg : msg.length = Envelope.size n)
    (hdst : msg.length ≤ dst.length) :
    let rx := (Envelope.withCookie P n cv (cpyMin msg dst)).take (Envelope.size n)
    rx.length = Envelope.size n ∧ (Envelope.cookieSpan n).get rx = (Envelope.cookieSpan n).get msg ∧
      (Envelope.cookie n).get rx = (P.hash (P.hash P.cookie cv) ((Envelope.cookieSpan n).get msg)).take 16 := by
  intro rx
  have hcopy : (cpyMin msg dst).take (Envelope.size n) = msg := hmsg ▸ take_cpyMin hdst
  have hlen : Envelope.size n ≤ (cpyMin msg dst).length := by rw [length_cpyMin]; omega
  have hv : ((P.hash (P.hash P.cookie cv) ((Envelope.cookieSpan n).get (cpyMin msg dst))).take 16).length =
      (Envelope.cookie n).len := by simp [Envelope.cookie, KEY_LEN, COOKIE_SIZE]
  have hstop : (Envelope.cookie n).stop ≤ (cpyMin msg dst).length := by
    simpa [Envelope.cookie, Envelope.size, Field.stop] using hlen
  -- what the cookie covers comes before it, and lies in the copy of `msg`
  have hspan : (Envelope.cookieSpan n).get (cpyMin msg dst) = (Envelope.cookieSpan n).get msg := by
    rw [← Field.get_take _ (by simp [Envelope.cookieSpan, Envelope.size, Field.stop] : (Envelope.cookieSpan n).stop ≤
      Envelope.size n), hcopy]
  have hin {f : Field} (hf : f.stop ≤ Envelope.size n) :
      f.get rx = f.get (Envelope.withCookie P n cv (cpyMin msg dst)) := Field.get_take f hf
  refine ⟨?_, ?_, ?_⟩
  · simp only [rx, Envelope.withCookie, List.length_take, Field.length_set _ hv hstop]
    omega
  · rw [hin (by simp [Envelope.cookieSpan, Envelope.size, Field.stop]), Envelope.withCookie,
      Field.get_set_of_disjoint (Envelope.cookie_disjoint_cookieSpan n).symm hv hstop, hspan]
  · rw [hin (by simp [Envelope.cookie, Envelope.size, Field.stop]), Envelope.withCookie,
      Field.get_set_self _ hv hstop, hspan]

variable {env : Env} {a a₁ : Ctx} {p : PeerPtr} {q : Peer}

/-- What a successful `initiate_handshake` leaves: the InitHello at the front of the
transmit buffer, and a handshake that keeps a copy of it and has its session id. -/
theorem run_initiateHandshake {len : Nat} (hq : a.srv.peer p.val = .ok q)
    (h : (initiateHandshake P env p).run a = .ok len a₁) :
    ∃ hs, len = Envelope.size (InitHello.size P) ∧ a₁.tx.headD 0 = MsgType.InitHello.toU8 ∧
      Envelope.size (InitHello.size P) ≤ a₁.tx.length ∧
      a₁.srv.peer p.val = .ok { q with handshake := some hs, initiationRequested := false } ∧
      (a₁.srv.index (.Sid hs.core.sidi) = some p.val ∨ a₁.srv.index (.Sid hs.core.sidi) = none) ∧
      (Envelope.field InitHello.sidi).get a₁.tx = hs.core.sidi ∧
      hs.txBuf = cpyMin (a₁.tx.take (Envelope.size (InitHello.size P))) (zeros MAX_MESSAGE_LEN) ∧
      hs.txLen = Envelope.size (InitHello.size P) := by
  apply (wp_eq_of_run_ok (E := fun _ _ => True) h).mp
  exact wp_initiateHandshake hq
    fun c' hs hty hlen hpeer hidx hsidi hbuf htxLen => ⟨hs, rfl, hty, hlen, hpeer, hidx, hsidi, hbuf, htxLen⟩

/-- What `handle_msg_under_load` sends when it answers an InitHello with a CookieReply:
the reply to that message, under the server's public key, with the cookie value of a
secret it holds afterwards. -/
theorem run_handleMsgUnderLoad_cookieReply {rx host cr : Bytes} {b b₁ : Ctx} {r : HandleMsgResult}
    (hty : rx.headD 0 = MsgType.InitHello.toU8) (hlen : rx.length = Envelope.size (InitHello.size P))
    (hb : (handleMsgUnderLoad P env rx host).run b = .ok r b₁)
    (hcr : Outcome.sent b₁.tx (.msg r) = some cr) (hcrty : cr.headD 0 = MsgType.CookieReply.toU8) :
    ∃ k : ServerCookieSecretPtr, CookieReply.size P ≤ b.tx.length ∧ b₁.srv.spkm = b.srv.spkm ∧
      cr = (cookieReplyTx P env b.srv.spkm (cookieValueOf P (b₁.srv.cookieSecrets k.val).value host) rx b.tx).take
        (CookieReply.size P) := by
  obtain ⟨l, srv₁, hA, hne, hshape, -, -⟩ := run_activeOrRetiredCookieSecrets env b
  have hspkm : srv₁.spkm = b.srv.spkm := by
    rcases hshape with rfl | ⟨k, f, rfl⟩ <;> rfl
  revert hcr hcrty
  apply (wp_eq_of_run_ok (E := fun _ _ => True) hb).mp
  apply wp_handleMsgUnderLoad_initHello hty hlen hA hne
  · -- a valid cookie: `handle_msg` answers with a RespHello, not a CookieReply
    intro _
    apply wp_handleMsg_initHello hty (fun _ => trivial)
    intro c' _ hresp _ hcr hcrty
    simp only [Outcome.sent, Option.map_some, Option.some.injEq] at hcr
    rw [← hcr, List.headD_take (by simp [Envelope.size]), hresp] at hcrty
    exact absurd hcrty (by decide)
  · -- no valid cookie: the reply with the cookie value of the first secret listed
    intro _ k _ _
    split_ifs with hsize
    · intro hcr _
      simp only [Outcome.sent, Option.map_some, Option.some.injEq] at hcr
      exact ⟨k, hsize, hspkm, by rw [← hcr, hspkm]⟩

/-- A CookieReply that `handle_msg` takes, for a handshake that keeps an InitHello and
whose session id the index holds for the peer or has dropped: the handshake stores the
cookie value that the reply opens to. -/
theorem run_handleMsg_cookieReply {c c' : Ctx} {hs : InitiatorHandshake} {cr : Bytes} {r : HandleMsgResult}
    (hq : c.srv.peer p.val = .ok q) (hhs : q.handshake = some hs)
    (hidx : c.srv.index (.Sid hs.core.sidi) = some p.val ∨ c.srv.index (.Sid hs.core.sidi) = none)
    (hty : hs.txBuf.headD 0 = MsgType.InitHello.toU8)
    (hcrty : cr.headD 0 = MsgType.CookieReply.toU8) (hcrlen : cr.length = CookieReply.size P)
    (hsid : CookieReply.sid.get cr = hs.core.sidi) (h : (handleMsg P env cr).run c = .ok r c') :
    ∃ v, Envelope.size (InitHello.size P) ≤ hs.txBuf.length ∧
      P.xaeadDecrypt (P.hash P.cookieKey q.spkt) ((Envelope.mac (InitHello.size P)).get hs.txBuf)
        (CookieReply.cookieEncrypted.get cr) = .ok v ∧
      c'.srv.peer p.val = .ok { q with handshake := some (hs.withCookie v env.now) } := by
  rcases hidx with hidx | hidx
  · apply (wp_eq_of_run_ok (E := fun _ _ => True) h).mp
    apply wp_handleMsg_cookieReply hcrty hcrlen
    apply wp_handleCookieReply hq hhs (by rw [hsid]; exact hidx) hsid.symm hty
    intro v c'' hbuf hdec _ hpeer
    exact ⟨v, hbuf, hdec, hpeer⟩
  · -- a reply to an id the index has dropped is refused
    have hno : wp (handleMsg P env cr) (fun _ _ => False) (fun _ _ => True) c :=
      wp_handleMsg_cookieReply hcrty hcrlen (wp_handleCookieReply_of_unindexed (by rw [hsid]; exact hidx))
    rw [wp_eq_of_run_ok h] at hno
    exact hno.elim

/-- What a successful `retransmit_handshake` sends: the handshake's message, copied over
the transmit buffer and sealed with the cookie of the handshake's cookie value. -/
theorem run_retransmitHandshake {c c' : Ctx} {hs : InitiatorHandshake} {len : Nat}
    (hq : c.srv.peer p.val = .ok q) (hhs : q.handshake = some hs) (h : (retransmitHandshake P p).run c = .ok len c') :
    len = hs.txLen ∧ hs.txLen ≤ hs.txBuf.length ∧ Envelope.size (InitHello.size P) ≤ c.tx.length ∧
      c'.tx = Envelope.withCookie P (InitHello.size P) hs.cookieValue.value (cpyMin (hs.txBuf.take hs.txLen) c.tx) := by
  apply (wp_eq_of_run_ok (E := fun _ _ => True) h).mp
  exact wp_retransmitHandshake hq hhs fun hbuf htx => ⟨rfl, hbuf, htx, rfl⟩

/-- Under load, an InitHello of the right size that carries the cookie of a live secret
goes to `handle_msg`, from the state the server was in. -/
theorem run_handleMsgUnderLoad_of_carries {rx host : Bytes} {b : Ctx} {k : ServerCookieSecretPtr}
    (hty : rx.headD 0 = MsgType.InitHello.toU8) (hlen : rx.length = Envelope.size (InitHello.size P))
    (hk : k.Live b.srv env.now) (hc : CarriesCookie P b.srv host rx k) :
    (handleMsgUnderLoad P env rx host).run b = (handleMsg P env rx).run b := by
  obtain ⟨l, srv₁, hA, hne, -, -, hlive⟩ := run_activeOrRetiredCookieSecrets env b
  -- with a live secret the list is the live ones, and no secret is made anew
  obtain ⟨rfl, hmem⟩ := hlive ⟨k, hk⟩
  apply EStateM.run_eq_of_wp
  exact wp_handleMsgUnderLoad_initHello hty hlen hA hne (fun _ => EStateM.wp_run _ _)
    (fun hno => absurd hc (hno k ((hmem k).2 hk)))

/-- A returning `handle_msg` on an InitHello answers with a RespHello. -/
theorem run_handleMsg_initHello_ok {rx : Bytes} {c c' : Ctx} {r : HandleMsgResult}
    (hty : rx.headD 0 = MsgType.InitHello.toU8) (h : (handleMsg P env rx).run c = .ok r c') :
    r = ⟨none, some (Envelope.size (RespHello.size P))⟩ ∧ c'.tx.headD 0 = MsgType.RespHello.toU8 := by
  apply (wp_eq_of_run_ok (E := fun _ _ => True) h).mp
  exact wp_handleMsg_initHello hty (fun _ => trivial) fun _ _ hresp _ => ⟨rfl, hresp⟩

/-- Two envelopes that agree on all the cookie covers have the same type. -/
theorem headD_eq_of_cookieSpan {n : Nat} {x y : Bytes}
    (h : (Envelope.cookieSpan n).get x = (Envelope.cookieSpan n).get y) : x.headD 0 = y.headD 0 := by
  have hpos : 0 < 4 + n + MAC_SIZE := by omega
  simp only [Envelope.cookieSpan, Field.get, slice, List.drop_zero] at h
  rw [← List.headD_take (b := x) hpos, h, List.headD_take hpos]

/-- **The cookie round trip.** An initiator `a` sends an InitHello; a responder `b`
under load answers it with a CookieReply; `a` takes the reply, and then retransmits. The
handshake of `a` holds the cookie value of a secret `k` of `b` for the host, and while
`b` holds that secret, live, the retransmission under load is what `handle_msg` makes of
the first InitHello: a RespHello, if it returns. -/
theorem cookieReply_then_retransmission (hx : P.xaead.Correct) {b b₁ a₂ a₃ : Ctx} {env₂ env₃ : Env}
    {host cr txa₂ txa₃ : Bytes} {len₁ len₂ : Nat} {r₁ r₂ : HandleMsgResult}
    (hq : a.srv.peer p.val = .ok q) (hpk : q.spkt = b.srv.spkm)
    (hinit : (initiateHandshake P env p).run a = .ok len₁ a₁)
    (hb₁ : (handleMsgUnderLoad P env₂ (a₁.tx.take len₁) host).run b = .ok r₁ b₁)
    (hcr : Outcome.sent b₁.tx (.msg r₁) = some cr) (hcrty : cr.headD 0 = MsgType.CookieReply.toU8)
    (ha₂ : (handleMsg P env₃ cr).run { a₁ with tx := txa₂ } = .ok r₂ a₂)
    (ha₃ : (retransmitHandshake P p).run { a₂ with tx := txa₃ } = .ok len₂ a₃) :
    ∃ (k : ServerCookieSecretPtr) (q₂ : Peer) (hs₂ : InitiatorHandshake), a₂.srv.peer p.val = .ok q₂ ∧
      q₂.handshake = some hs₂ ∧ hs₂.cookieValue.value = cookieValueOf P (b₁.srv.cookieSecrets k.val).value host ∧
      ∀ (env₄ : Env) (b₂ : Ctx), (b₂.srv.cookieSecrets k.val).value = (b₁.srv.cookieSecrets k.val).value →
        k.Live b₂.srv env₄.now →
        (handleMsgUnderLoad P env₄ (a₃.tx.take len₂) host).run b₂ = (handleMsg P env₄ (a₁.tx.take len₁)).run b₂ ∧
        ∀ r b₃, (handleMsgUnderLoad P env₄ (a₃.tx.take len₂) host).run b₂ = .ok r b₃ →
          r = ⟨none, some (Envelope.size (RespHello.size P))⟩ ∧ b₃.tx.headD 0 = MsgType.RespHello.toU8 := by
  -- the InitHello `a` sends, and the handshake that keeps it
  obtain ⟨hs₁, rfl, hty₁, hlen₁, hpeer₁, hidx₁, hsidi₁, hbuf₁, htxLen₁⟩ := run_initiateHandshake hq hinit
  have hpos : 0 < Envelope.size (InitHello.size P) := by simp [Envelope.size]
  have hrx₁ : (a₁.tx.take (Envelope.size (InitHello.size P))).length = Envelope.size (InitHello.size P) := by
    simp [hlen₁]
  have hrxty₁ : (a₁.tx.take (Envelope.size (InitHello.size P))).headD 0 = MsgType.InitHello.toU8 := by
    rw [List.headD_take hpos, hty₁]
  -- the CookieReply of `b`, with the cookie value of its secret `k`
  obtain ⟨k, hsize, -, rfl⟩ := run_handleMsgUnderLoad_cookieReply hrxty₁ hrx₁ hb₁ hcr hcrty
  have hcv : (cookieValueOf P (b₁.srv.cookieSecrets k.val).value host).length = COOKIE_SIZE := by
    simp [cookieValueOf, KEY_LEN, COOKIE_SIZE]
  obtain ⟨hcrlen, -, hcrsid, hcrenc⟩ := cookieReplyTx_sent env₂ b.srv.spkm hcv hrx₁ hsize
  -- `a` takes it, and stores what it opens to
  have hsid : CookieReply.sid.get ((cookieReplyTx P env₂ b.srv.spkm (cookieValueOf P (b₁.srv.cookieSecrets k.val).value
      host) (a₁.tx.take (Envelope.size (InitHello.size P))) b.tx).take (CookieReply.size P)) = hs₁.core.sidi := by
    rw [hcrsid, Field.get_take _ (by simp [Envelope.field, InitHello.sidi, InitHello.size, Envelope.size, Field.stop]; omega),
      hsidi₁]
  have hbufty : hs₁.txBuf.headD 0 = MsgType.InitHello.toU8 := by
    rw [hbuf₁, headD_cpyMin (List.ne_nil_of_length_pos (by rw [hrx₁]; exact hpos)) (List.ne_nil_of_length_pos (by rw [zeros, List.length_replicate]; decide)), hrxty₁]
  obtain ⟨v, hbuf, hdec, hpeer₂⟩ := run_handleMsg_cookieReply (c := { a₁ with tx := txa₂ }) hpeer₁ rfl hidx₁ hbufty hcrty hcrlen hsid ha₂
  have hfit : (a₁.tx.take (Envelope.size (InitHello.size P))).length ≤ (zeros MAX_MESSAGE_LEN).length := by
    rw [hrx₁]
    simpa [hbuf₁, length_cpyMin] using hbuf
  have hkept : hs₁.txBuf.take (Envelope.size (InitHello.size P)) = a₁.tx.take (Envelope.size (InitHello.size P)) := by
    have h := take_cpyMin hfit
    rw [hrx₁] at h
    rw [hbuf₁, h]
  have hmac : (Envelope.mac (InitHello.size P)).get hs₁.txBuf =
      (Envelope.mac (InitHello.size P)).get (a₁.tx.take (Envelope.size (InitHello.size P))) := by
    rw [← Field.get_take _ (Envelope.mac_stop_le (InitHello.size P)), hkept]
  have hv : v = cookieValueOf P (b₁.srv.cookieSecrets k.val).value host := by
    rw [hmac, hcrenc, hpk, P.xaeadDecrypt_xaeadEncrypt hx (by simp [draw])] at hdec
    exact (Except.ok.inj hdec).symm
  -- the retransmission: the kept InitHello with the cookie of that value
  obtain ⟨hlen₂, -, htx₃, hsent₃⟩ := run_retransmitHandshake (c := { a₂ with tx := txa₃ }) hpeer₂ rfl ha₃
  simp only [InitiatorHandshake.withCookie, CookieStore.update, htxLen₁, hkept] at hlen₂ hsent₃
  subst hlen₂
  obtain ⟨hrx₂, hspan₂, hcookie₂⟩ := withCookie_cpyMin (P := P) v hrx₁ (hrx₁ ▸ htx₃)
  rw [← hsent₃] at hrx₂ hspan₂ hcookie₂
  refine ⟨k, _, _, hpeer₂, rfl, hv, fun env₄ b₂ hsame hk => ?_⟩
  -- `b` finds the cookie of its secret, and goes on as with the first InitHello
  have hcarry : CarriesCookie P b₂.srv host (a₃.tx.take (Envelope.size (InitHello.size P))) k := by
    rw [CarriesCookie, expectedCookie, hcookie₂, hspan₂, hv, cookieValueOf, cookieValueOf, hsame]
  have hty₂ : (a₃.tx.take (Envelope.size (InitHello.size P))).headD 0 = MsgType.InitHello.toU8 := by
    rw [headD_eq_of_cookieSpan hspan₂, hrxty₁]
  have hrun : (handleMsgUnderLoad P env₄ (a₃.tx.take (Envelope.size (InitHello.size P))) host).run b₂ =
      (handleMsg P env₄ (a₁.tx.take (Envelope.size (InitHello.size P)))).run b₂ := by
    rw [run_handleMsgUnderLoad_of_carries hty₂ hrx₂ hk hcarry,
      handleMsg_congr_initHello hrxty₁ hrx₁ (hrx₂.trans hrx₁.symm) hspan₂]
  refine ⟨hrun, fun r b₃ h => ?_⟩
  rw [hrun] at h
  exact run_handleMsg_initHello_ok hrxty₁ h

end Exchange

end Rosenpass
