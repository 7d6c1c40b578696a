/-
The rotation of the biscuit keys (`active_biscuit_key`, `Pollable for BiscuitKeyPtr`).

A biscuit is sealed under the key `active_biscuit_key` returns: the younger key while it
is young, else the older key made anew. `poll` erases a key once it is dead. The key that
sealed a biscuit at `t` is then the younger key, or stands behind a younger one that stays
young; either way neither the rotation nor the poll touches it before
`t + BISCUIT_EPOCH - 2 * EVENT_GRACE` (`Guards`, which every call before then keeps), so
the biscuit opens under the key that sealed it until then.
-/
import Rosenpass.Protocol.Cookie

namespace Rosenpass

open EStateM

variable {P : Primitives}

/-! ## A store's lifecycle -/

namespace CookieStore

variable {epoch now : Timing} {s : CookieStore}

/-- A store alive with a margin of `EVENT_GRACE` survives the poll. -/
theorem afterPoll_of_alive {r : Rand} (hc : 0 ≤ s.createdAt) (h : EVENT_GRACE ≤ s.createdAt + 2 * epoch - now) :
    s.afterPoll epoch now r = s := by
  have hnd : hasHappened (s.dieWait epoch now) 0 = false := by
    simp only [dieWait, dieAt, retireAt, createdAt?_of_nonneg hc, Option.map_some, timeLeft, Wait.orHibernate,
      Option.getD_some, hasHappened, sub_zero, decide_eq_false_iff_not, not_lt]
    linarith
  simp [afterPoll, hnd]

/-- A poll leaves a store as it was, or erased to a time before any. -/
theorem afterPoll_cases (r : Rand) : s.afterPoll epoch now r = s ∨ (s.afterPoll epoch now r).createdAt = BCE := by
  unfold afterPoll
  split
  · exact .inr rfl
  · exact .inl rfl

end CookieStore

/-! ## The two keys -/

namespace BiscuitKeys

/-- The key `active_biscuit_key` returns if it is young: the younger, the first on a tie. -/
def youngest (keys : Fin 2 → CookieStore) : Fin 2 :=
  if (keys 0).createdAt ≥ (keys 1).createdAt then 0 else 1

/-- The key it makes anew otherwise: the older, the last on a tie. -/
def oldest (keys : Fin 2 → CookieStore) : Fin 2 :=
  if (keys 0).createdAt < (keys 1).createdAt then 0 else 1

/-- `active_biscuit_key()` on the two keys: the key it returns, and the keys it leaves. -/
def active (env : Env) (keys : Fin 2 → CookieStore) : Fin 2 × (Fin 2 → CookieStore) :=
  if (keys (youngest keys)).lifecycle BISCUIT_EPOCH env.now = .Young then (youngest keys, keys)
  else (oldest keys, Function.update keys (oldest keys)
    ((keys (oldest keys)).randomize (env.coins.biscuitKey (oldest keys)) env.now))

/-- The keys after `poll`: each erased once it is due to die. -/
def afterPoll (env : Env) (keys : Fin 2 → CookieStore) : Fin 2 → CookieStore :=
  fun k => (keys k).afterPoll BISCUIT_EPOCH env.now (env.coins.biscuitKey k)

/-- The other key. -/
def other (k : Fin 2) : Fin 2 := if k = 0 then 1 else 0

theorem other_ne (k : Fin 2) : other k ≠ k := by
  revert k
  decide

theorem eq_or_eq_other (j k : Fin 2) : j = k ∨ j = other k := by
  revert j k
  decide

theorem oldest_eq_other (keys : Fin 2 → CookieStore) : oldest keys = other (youngest keys) := by
  unfold oldest youngest
  split_ifs <;> first | rfl | (exfalso; linarith)

/-- The key made strictly later is the younger. -/
theorem youngest_of_lt {keys : Fin 2 → CookieStore} {k : Fin 2}
    (h : (keys (other k)).createdAt < (keys k).createdAt) : youngest keys = k := by
  rcases (by omega : k = 0 ∨ k = 1) with rfl | rfl
  · simp only [other, if_true] at h
    simp [youngest, le_of_lt h]
  · simp only [other, Fin.one_eq_zero_iff, OfNat.ofNat_ne_one, if_false] at h
    simp [youngest, not_le.2 h]

/-- Two key pairs that agree on `k` and on the other key are the same. -/
theorem ext_other {keys keys' : Fin 2 → CookieStore} {k : Fin 2} (hk : keys' k = keys k)
    (hj : keys' (other k) = keys (other k)) : keys' = keys := by
  funext j
  rcases eq_or_eq_other j k with rfl | rfl
  · exact hk
  · exact hj

/-! ## What keeps a key -/

/-- The key `k` is safe until `D`: made at a time not before zero, alive until `D` with a
margin of `EVENT_GRACE`, and either the younger key or behind a younger one that stays
young until `D`. -/
def Guards (k : Fin 2) (D : Timing) (keys : Fin 2 → CookieStore) : Prop :=
  0 ≤ (keys k).createdAt ∧ D ≤ (keys k).createdAt + 2 * BISCUIT_EPOCH - 2 * EVENT_GRACE ∧
    (youngest keys = k ∨
      0 ≤ (keys (other k)).createdAt ∧ D ≤ (keys (other k)).createdAt + BISCUIT_EPOCH - EVENT_GRACE)

variable {env : Env} {k : Fin 2} {D : Timing} {keys : Fin 2 → CookieStore}

theorem biscuitEpoch_nonneg : (0 : Timing) ≤ BISCUIT_EPOCH := by
  norm_num [BISCUIT_EPOCH]

theorem eventGrace_nonneg : (0 : Timing) ≤ EVENT_GRACE := by
  norm_num [EVENT_GRACE]

/-- `active_biscuit_key` before `D` keeps a guarded key: it is young or, being the older,
behind a young key; a key made anew is the other one, and young until after `D`. -/
theorem guards_active (h : Guards k D keys) (h0 : 0 ≤ env.now) (hD : env.now < D) :
    (active env keys).2 k = keys k ∧ Guards k D (active env keys).2 := by
  unfold active
  split_ifs with hy
  · exact ⟨rfl, h⟩
  · -- the younger key is not young, so it is `k`: the other would be young until `D`
    have hyk : youngest keys = k := by
      rcases h.2.2 with hk | ⟨hj0, hjD⟩
      · exact hk
      · by_contra hne
        have hyj : youngest keys = other k := (eq_or_eq_other _ k).resolve_left hne
        apply hy
        rw [hyj, CookieStore.lifecycle_eq_young_iff biscuitEpoch_nonneg]
        exact ⟨hj0, by linarith⟩
    have hret : (keys k).createdAt + BISCUIT_EPOCH - EVENT_GRACE < env.now := by
      rw [hyk, CookieStore.lifecycle_eq_young_iff biscuitEpoch_nonneg] at hy
      have := not_le.1 fun h' => hy ⟨h.1, h'⟩
      linarith
    have hold : oldest keys = other k := by rw [oldest_eq_other, hyk]
    have hkk : Function.update keys (other k) ((keys (other k)).randomize (env.coins.biscuitKey (other k)) env.now) k =
        keys k := Function.update_of_ne (other_ne k).symm _ _
    simp only [hold]
    refine ⟨hkk, by rw [hkk]; exact h.1, by rw [hkk]; exact h.2.1, Or.inr ⟨?_, ?_⟩⟩
    · simpa [CookieStore.randomize] using h0
    · simp only [Function.update_self, CookieStore.randomize]
      linarith [h.2.1]

/-- `poll` before `D` keeps a guarded key, which is alive; the other key it may erase only
while `k` is the younger, and `k` stays the younger. -/
theorem guards_afterPoll (h : Guards k D keys) (hD : env.now < D) :
    afterPoll env keys k = keys k ∧ Guards k D (afterPoll env keys) := by
  obtain ⟨h0, hkD, hy⟩ := h
  have hG := eventGrace_nonneg
  have hE := biscuitEpoch_nonneg
  have hk : afterPoll env keys k = keys k := CookieStore.afterPoll_of_alive h0 (by linarith)
  refine ⟨hk, ?_⟩
  rcases hy with hy | ⟨hj0, hjD⟩
  · refine ⟨by rw [hk]; exact h0, by rw [hk]; exact hkD, Or.inl ?_⟩
    have hcases : (keys (other k)).afterPoll BISCUIT_EPOCH env.now (env.coins.biscuitKey (other k))
          = keys (other k) ∨
        ((keys (other k)).afterPoll BISCUIT_EPOCH env.now (env.coins.biscuitKey (other k))).createdAt
          = BCE :=
      CookieStore.afterPoll_cases _
    rcases hcases with hj | hj
    · rw [ext_other hk hj]
      exact hy
    · -- the other key is erased to a time before `k`'s
      apply youngest_of_lt
      change ((keys (other k)).afterPoll BISCUIT_EPOCH env.now (env.coins.biscuitKey (other k))).createdAt <
        (afterPoll env keys k).createdAt
      rw [hj, hk]
      have hbce : BCE < 0 := by norm_num [BCE]
      linarith
  · have hj : afterPoll env keys (other k) = keys (other k) := CookieStore.afterPoll_of_alive hj0 (by linarith)
    rw [ext_other hk hj]
    exact ⟨h0, hkD, Or.inr ⟨hj0, hjD⟩⟩

/-- The key `active_biscuit_key` returns at a time not before zero is young, and guarded
for one epoch less twice `EVENT_GRACE`. -/
theorem guards_active_self (h0 : 0 ≤ env.now) :
    Guards (active env keys).1 (env.now + BISCUIT_EPOCH - 2 * EVENT_GRACE) (active env keys).2 ∧
      ((active env keys).2 (active env keys).1).lifecycle BISCUIT_EPOCH env.now = .Young := by
  have hE := biscuitEpoch_nonneg
  have hG := eventGrace_nonneg
  unfold active
  split_ifs with hy
  · -- the younger key is young
    obtain ⟨hc, hg⟩ := (CookieStore.lifecycle_eq_young_iff hE).1 hy
    exact ⟨⟨hc, by linarith, Or.inl rfl⟩, hy⟩
  · -- the older key is made now
    simp only
    have hnew : (Function.update keys (oldest keys)
        ((keys (oldest keys)).randomize (env.coins.biscuitKey (oldest keys)) env.now) (oldest keys)).createdAt =
        env.now := by
      simp [CookieStore.randomize]
    have hj : Function.update keys (oldest keys)
        ((keys (oldest keys)).randomize (env.coins.biscuitKey (oldest keys)) env.now) (other (oldest keys)) =
        keys (other (oldest keys)) := Function.update_of_ne (other_ne _) _ _
    refine ⟨⟨by rw [hnew]; exact h0, by rw [hnew]; linarith, ?_⟩, ?_⟩
    · rw [hj]
      by_cases hlt : (keys (other (oldest keys))).createdAt < env.now
      · exact Or.inl (youngest_of_lt (by rw [hj, hnew]; exact hlt))
      · exact Or.inr ⟨by linarith [not_lt.1 hlt], by linarith [not_lt.1 hlt]⟩
    · rw [CookieStore.lifecycle_eq_young_iff hE, hnew]
      refine ⟨h0, ?_⟩
      norm_num [EVENT_GRACE, BISCUIT_EPOCH]

end BiscuitKeys

/-! ## The calls that change the keys -/

/-- `active_biscuit_key` changes the keys as `BiscuitKeys.active` says, and nothing else. -/
theorem run_activeBiscuitKey (env : Env) (c : Ctx) :
    (activeBiscuitKey env).run c = .ok ⟨(BiscuitKeys.active env c.srv.biscuitKeys).1⟩
      { c with srv := { c.srv with biscuitKeys := (BiscuitKeys.active env c.srv.biscuitKeys).2 } } := by
  unfold activeBiscuitKey BiscuitKeys.active BiscuitKeys.youngest BiscuitKeys.oldest
  by_cases ht : (c.srv.biscuitKeys 0).createdAt ≥ (c.srv.biscuitKeys 1).createdAt
  · have ht' : ¬(c.srv.biscuitKeys 0).createdAt < (c.srv.biscuitKeys 1).createdAt := not_lt.2 ht
    by_cases hy : (c.srv.biscuitKeys 0).lifecycle BISCUIT_EPOCH env.now = .Young
    · simp [ht, hy, BiscuitKeyPtr.lifecycle]
    · simp only [BiscuitKeyPtr.lifecycle, Fin.isValue, ge_iff_le, CryptoServer.updateBiscuitKey, bind_pure_comp,
        run_bind, run_getSrv, ht, ↓reduceIte, hy, ht']
      rfl
  · have ht' : (c.srv.biscuitKeys 0).createdAt < (c.srv.biscuitKeys 1).createdAt := lt_of_not_ge ht
    by_cases hy : (c.srv.biscuitKeys 1).lifecycle BISCUIT_EPOCH env.now = .Young
    · simp [ht, hy, BiscuitKeyPtr.lifecycle]
    · simp only [BiscuitKeyPtr.lifecycle, Fin.isValue, ge_iff_le, CryptoServer.updateBiscuitKey, bind_pure_comp,
        run_bind, run_getSrv, ht, ↓reduceIte, hy, ht']
      rfl

/-- `store_biscuit` for a peer that exists: it consumes a biscuit number, rotates the keys,
and seals the biscuit under the key it got, with that key's bit in the nonce. -/
theorem run_storeBiscuit {env : Env} {hs : HandshakeState} {peer : PeerPtr} {c : Ctx} {q : Peer}
    (hq : c.srv.peer peer.val = .ok q) :
    let a := BiscuitKeys.active env c.srv.biscuitKeys
    let ct := P.xaeadEncrypt (a.2 a.1).value (HandshakeState.markNonce (draw XAEAD_NONCE_LEN env.coins.nonce) ⟨a.1⟩)
      (HandshakeState.biscuitAd P c.srv.spkm hs.sidi hs.sidr)
      (Biscuit.ck.set hs.ck (Biscuit.biscuitNo.set c.srv.biscuitCtr (Biscuit.pidi.set (q.pidt P) (zeros BISCUIT_PT_LEN))))
    (hs.storeBiscuit P env peer).run c =
      .ok (ct, hs.mix P ct)
        { c with srv := { c.srv with biscuitCtr := ConstantTime.increment c.srv.biscuitCtr, biscuitKeys := a.2 } } := by
  intro a ct
  rw [HandshakeState.storeBiscuit, run_bind_of_ok (PeerPtr.run_get hq), run_bind_of_ok (run_getSrv _),
    run_bind_of_ok (run_modifySrv _ _), run_bind_of_ok (run_activeBiscuitKey env _), run_bind_of_ok (run_getSrv _)]
  rfl

/-- `store_biscuit` for a peer that does not exist fails before it writes. -/
theorem run_storeBiscuit_of_error {env : Env} {hs : HandshakeState} {peer : PeerPtr} {c : Ctx} {e : Fault}
    (he : c.srv.peer peer.val = .error e) : (hs.storeBiscuit P env peer).run c = .error e c := by
  have hget : peer.get.run c = .error e c := by simp [PeerPtr.get, getSrv, he]
  rw [HandshakeState.storeBiscuit, run_bind_of_error hget]

/-- A call at a time in `[0, D)` that may change the biscuit keys: `store_biscuit` for any
handshake state and peer, or `poll`, with any draws, whatever it returns. -/
def KeyCall (P : Primitives) (D : Timing) (c c' : Ctx) : Prop :=
  ∃ env : Env, 0 ≤ env.now ∧ env.now < D ∧
    ((∃ (hs : HandshakeState) (peer : PeerPtr), c' = ((hs.storeBiscuit P env peer).run c).state) ∨
      c' = ((poll env).run c).state)

/-- One call before `D` keeps a guarded key and its guard. -/
theorem KeyCall.guards {D : Timing} {k : Fin 2} {c c' : Ctx} (h : BiscuitKeys.Guards k D c.srv.biscuitKeys)
    (hc : KeyCall P D c c') :
    c'.srv.biscuitKeys k = c.srv.biscuitKeys k ∧ BiscuitKeys.Guards k D c'.srv.biscuitKeys := by
  obtain ⟨env, h0, hD, ⟨hs, peer, rfl⟩ | rfl⟩ := hc
  · cases hq : c.srv.peer peer.val with
    | error e =>
      rw [run_storeBiscuit_of_error hq]
      exact ⟨rfl, h⟩
    | ok q =>
      rw [run_storeBiscuit hq]
      exact BiscuitKeys.guards_active h h0 hD
  · obtain ⟨c', hrun, -, hkeys, -⟩ := run_poll env c
    have hk : c'.srv.biscuitKeys = BiscuitKeys.afterPoll env c.srv.biscuitKeys := funext hkeys
    rw [hrun, Result.state_ok, hk]
    exact BiscuitKeys.guards_afterPoll h hD

/-- Calls one after another before `D` keep a guarded key. -/
theorem KeyCall.guards_of_reflTransGen {D : Timing} {k : Fin 2} {c c' : Ctx}
    (h : BiscuitKeys.Guards k D c.srv.biscuitKeys) (hr : Relation.ReflTransGen (KeyCall P D) c c') :
    c'.srv.biscuitKeys k = c.srv.biscuitKeys k ∧ BiscuitKeys.Guards k D c'.srv.biscuitKeys := by
  induction hr with
  | refl => exact ⟨rfl, h⟩
  | tail _ step ih =>
    obtain ⟨hk, hg⟩ := KeyCall.guards ih.2 step
    exact ⟨hk.trans ih.1, hg⟩

theorem biscuit_keys_rotate_safely (hx : P.xaead.Correct) (env : Env) (h0 : 0 ≤ env.now) :
    (∀ c k c', (activeBiscuitKey env).run c = .ok k c' →
      (c'.srv.biscuitKeys k.val).lifecycle BISCUIT_EPOCH env.now = .Young) ∧
    ∀ (hs : HandshakeState) (peer : PeerPtr) (c : Ctx) (q : Peer), c.srv.peer peer.val = .ok q →
      ∃ ct c', (hs.storeBiscuit P env peer).run c = .ok (ct, hs.mix P ct) c' ∧
        (c'.srv.biscuitKeys (HandshakeState.biscuitKeyOf ct).val).lifecycle BISCUIT_EPOCH env.now = .Young ∧
        ∀ c'', Relation.ReflTransGen (KeyCall P (env.now + BISCUIT_EPOCH - 2 * EVENT_GRACE)) c' c'' →
          c''.srv.biscuitKeys (HandshakeState.biscuitKeyOf ct).val =
            c'.srv.biscuitKeys (HandshakeState.biscuitKeyOf ct).val ∧
          P.xaeadDecrypt (c''.srv.biscuitKeys (HandshakeState.biscuitKeyOf ct).val).value
            (HandshakeState.biscuitAd P c.srv.spkm hs.sidi hs.sidr) ct =
            .ok (Biscuit.ck.set hs.ck (Biscuit.biscuitNo.set c.srv.biscuitCtr
              (Biscuit.pidi.set (q.pidt P) (zeros BISCUIT_PT_LEN)))) := by
  refine ⟨fun c k c' hrun => ?_, fun hs peer c q hq => ?_⟩
  · -- the key returned is the one `BiscuitKeys.active` names, and it is young
    rw [run_activeBiscuitKey] at hrun
    cases hrun
    exact (BiscuitKeys.guards_active_self h0).2
  · let a := BiscuitKeys.active env c.srv.biscuitKeys
    let c' : Ctx :=
      { c with srv := { c.srv with biscuitCtr := ConstantTime.increment c.srv.biscuitCtr, biscuitKeys := a.2 } }
    have hg : BiscuitKeys.Guards a.1 (env.now + BISCUIT_EPOCH - 2 * EVENT_GRACE) c'.srv.biscuitKeys :=
      (BiscuitKeys.guards_active_self h0).1
    have hy : (c'.srv.biscuitKeys a.1).lifecycle BISCUIT_EPOCH env.now = .Young :=
      (BiscuitKeys.guards_active_self h0).2
    refine ⟨_, c', run_storeBiscuit hq, ?_⟩
    -- the biscuit names the key that sealed it
    rw [HandshakeState.biscuitKeyOf_xaeadEncrypt]
    refine ⟨hy, fun c'' hr => ?_⟩
    obtain ⟨hk, -⟩ := KeyCall.guards_of_reflTransGen hg hr
    refine ⟨hk, ?_⟩
    rw [hk]
    exact P.xaeadDecrypt_xaeadEncrypt hx (by simp) _ _ _

/-- The theorem at the small primitives and a time of zero. -/
theorem biscuit_keys_rotate_safely_small :
    Primitives.small.xaead.Correct ∧ (0 : Timing) ≤ 0 ∧
    (∀ c k c', (activeBiscuitKey ⟨0, Coins.constant 0⟩).run c = .ok k c' →
      (c'.srv.biscuitKeys k.val).lifecycle BISCUIT_EPOCH 0 = .Young) ∧
    ∀ (hs : HandshakeState) (peer : PeerPtr) (c : Ctx) (q : Peer), c.srv.peer peer.val = .ok q →
      ∃ ct c', (hs.storeBiscuit Primitives.small ⟨0, Coins.constant 0⟩ peer).run c = .ok (ct, hs.mix Primitives.small ct) c' ∧
        (c'.srv.biscuitKeys (HandshakeState.biscuitKeyOf ct).val).lifecycle BISCUIT_EPOCH 0 = .Young ∧
        ∀ c'', Relation.ReflTransGen (KeyCall Primitives.small (0 + BISCUIT_EPOCH - 2 * EVENT_GRACE)) c' c'' →
          c''.srv.biscuitKeys (HandshakeState.biscuitKeyOf ct).val =
            c'.srv.biscuitKeys (HandshakeState.biscuitKeyOf ct).val ∧
          Primitives.small.xaeadDecrypt (c''.srv.biscuitKeys (HandshakeState.biscuitKeyOf ct).val).value
            (HandshakeState.biscuitAd Primitives.small c.srv.spkm hs.sidi hs.sidr) ct =
            .ok (Biscuit.ck.set hs.ck (Biscuit.biscuitNo.set c.srv.biscuitCtr
              (Biscuit.pidi.set (q.pidt Primitives.small) (zeros BISCUIT_PT_LEN)))) :=
  ⟨Aead.small_correct, le_rfl, biscuit_keys_rotate_safely Aead.small_correct ⟨0, Coins.constant 0⟩ le_rfl⟩

end Rosenpass
