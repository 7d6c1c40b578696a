/-
The responder keeps no state for the handshakes it answers (`handle_init_hello`,
`store_biscuit`): resistance to state disruption.

An InitHello is answered from the message and the server's keys alone; what the
responder needs later travels in the RespHello as an encrypted biscuit. So handling an
InitHello, forged or replayed, cannot disturb a session, a handshake, the index or the
cookie secrets: whatever the state and whatever the message, the only changes are the
ones `store_biscuit` makes, one biscuit number consumed and at most one biscuit key
re-randomized, and they are made only when a RespHello goes out. A failure leaves the
server exactly as it was, because every check comes before `store_biscuit` and nothing
after it can fail.
-/
import Rosenpass.Properties.Agreement

namespace Rosenpass

open EStateM Buffer

variable {P : Primitives}

/-- **The responder is stateless.** Handling a message whose first byte is the InitHello
type either fails and leaves the server exactly as it was, or answers with a RespHello
and changes only what `store_biscuit` changes: the biscuit counter, by one increment, and
at most one biscuit key. Peers (their keys, biscuits used, sessions, handshakes and
initiation requests), the index and the cookie secrets stay as they were. -/
theorem handleMsg_initHello_stateless (env : Env) (rx : Bytes) (c : Ctx)
    (hrx : rx.headD 0 = MsgType.InitHello.toU8) :
    wp (handleMsg P env rx)
      (fun res c' => res = ⟨none, some (Envelope.size (RespHello.size P))⟩ ∧ BiscuitStep env c.srv c'.srv)
      (fun _ c' => c'.srv = c.srv) c := by
  apply wp_handleMsg_initHello hrx
  · intro _
    rfl
  · intro c' hstep _ _
    exact ⟨rfl, hstep⟩

/-- The responder of a pair handles the InitHello its peer sends: a RespHello goes out,
and the server changes only as `store_biscuit` changes it. -/
theorem handleMsg_initHello_stateless_pair :
    let n := Net.pair Primitives.small (Coins.constant 0) (Coins.constant 0) [21] [21] [42] [42] (zeros KEY_LEN)
    let rx := ((initiateHandshake Primitives.small ⟨1, Coins.constant 1⟩ ⟨0⟩).run
      ⟨n.a, zeros MAX_MESSAGE_LEN⟩).state.tx.take (Envelope.size (InitHello.size Primitives.small))
    rx.headD 0 = MsgType.InitHello.toU8 ∧
      ∃ res c', (handleMsg Primitives.small ⟨2, Coins.constant 2⟩ rx).run ⟨n.b, zeros MAX_MESSAGE_LEN⟩ = .ok res c' ∧
        res = ⟨none, some (Envelope.size (RespHello.size Primitives.small))⟩ ∧
        BiscuitStep ⟨2, Coins.constant 2⟩ n.b c'.srv := by
  intro n rx
  obtain ⟨z, hz, hzlen⟩ := exists_zeros_eq MAX_MESSAGE_LEN
  -- 1. the initiator sends the InitHello of its hello
  have hA : InitiatorReady Primitives.small n.a 0 (Peer.new (zeros KEY_LEN) [42]) := ⟨⟨fun _ => 21, rfl⟩, rfl⟩
  have hw₁ := initiate_awaitsResp ⟨1, Coins.constant 1⟩ hA (fun _ h => by cases h) (by decide +kernel)
    (show Envelope.size (InitHello.size Primitives.small) ≤ z.length by rw [hzlen]; decide)
  simp only [Op.exec, wp_map] at hw₁
  obtain ⟨len, c₁, hrun₁, -, hmsg, -⟩ := run_of_wp hw₁
  have hrx : rx = c₁.tx.take (Envelope.size (InitHello.size Primitives.small)) := by
    show ((initiateHandshake _ _ _).run ⟨n.a, zeros MAX_MESSAGE_LEN⟩).state.tx.take _ = _
    rw [hz, hrun₁]
    rfl
  -- 2. the responder knows the initiator, and answers
  have hB : ResponderReady Primitives.small n.b n.a.spkm (Peer.new (zeros KEY_LEN) [42]).psk 0
      (Peer.new (zeros KEY_LEN) [21]) :=
    ⟨⟨fun _ => 42, rfl⟩, by decide +kernel, rfl, rfl, rfl, by decide +kernel, by decide +kernel, by decide +kernel⟩
  have hdec : Primitives.small.staticKem.decaps n.b.sskm
      (Hello.ofInitiator Primitives.small ⟨1, Coins.constant 1⟩ n.a.spkm (Peer.new (zeros KEY_LEN) [42])).sctr =
      (Hello.ofInitiator Primitives.small ⟨1, Coins.constant 1⟩ n.a.spkm (Peer.new (zeros KEY_LEN) [42])).shk := by
    obtain ⟨rnd, hkey⟩ := hB.keys
    exact Kem.small_correct.decaps_encaps hkey _
  have hw₂ := initHello_answered ⟨2, Coins.constant 2⟩ Aead.small_correct hB hmsg rfl rfl rfl (length_draw _ _) hdec
    (by decide +kernel) (show Envelope.size (RespHello.size Primitives.small) ≤ z.length by rw [hzlen]; decide)
  simp only [Op.exec, wp_map] at hw₂
  obtain ⟨res, c', hrun₂, -⟩ := run_of_wp hw₂
  rw [← hrx] at hrun₂
  -- 3. what the responder's answer is, and all it changed
  have hty : rx.headD 0 = MsgType.InitHello.toU8 := hrx ▸ hmsg.1.2.1
  rw [hz]
  -- the pair and the message stay opaque from here, so that no unification runs them
  clear_value rx n
  have hpost := handleMsg_initHello_stateless (P := Primitives.small) ⟨2, Coins.constant 2⟩ rx ⟨n.b, z⟩ hty
  rw [wp_eq_of_run_ok hrun₂] at hpost
  exact ⟨hty, res, c', hrun₂, hpost⟩

end Rosenpass
