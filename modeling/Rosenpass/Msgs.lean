/-
The messages on the wire (`rosenpass/src/msgs.rs`).

The source keeps every message serialized and reads and writes its fields in
place through `#[repr(packed)]` structs; here a message is its byte string and a
field of a struct is a `Buffer.Field`, its offset and length as the packed layout
puts them. The lengths of the KEM keys and ciphertexts are those of the
`Primitives`, so a layout is a function of them.

`MsgType.tryFrom` is the `TryFrom<u8>` of the message type byte; its two lemmas
say it inverts `toU8` and accepts nothing else, so a message's first byte names
at most one type.
-/
import Rosenpass.Ciphers
import Rosenpass.Lib.Buffer

namespace Rosenpass

open Buffer

def MAC_SIZE : Nat := 16
def COOKIE_SIZE : Nat := 16
def SESSION_ID_LEN : Nat := 4
def BISCUIT_ID_LEN : Nat := 12

/-- Size required to fit any message in binary form. -/
def MAX_MESSAGE_LEN : Nat := 2500

/-- `RosenpassError`, the errors of the message casts, with the texts they display. -/
inductive RosenpassError where
  | BufferSizeMismatch
  | InvalidMessageType (value : UInt8)
  deriving DecidableEq, Repr

def RosenpassError.msg : RosenpassError → String
  | .BufferSizeMismatch => "buffer size mismatch"
  | .InvalidMessageType _ => "invalid message type"

/-- Recognized message types. -/
inductive MsgType where
  | InitHello
  | RespHello
  | InitConf
  | EmptyData
  | DataMsg
  | CookieReply
  deriving DecidableEq, Repr

namespace MsgType

/-- `From<MsgType> for u8`. -/
def toU8 : MsgType → UInt8
  | InitHello => 0x81
  | RespHello => 0x82
  | InitConf => 0x83
  | EmptyData => 0x84
  | DataMsg => 0x85
  | CookieReply => 0x86

/-- `TryFrom<u8> for MsgType`. -/
def tryFrom (value : UInt8) : Except RosenpassError MsgType :=
  match value with
  | 0x81 => .ok InitHello
  | 0x82 => .ok RespHello
  | 0x83 => .ok InitConf
  | 0x84 => .ok EmptyData
  | 0x85 => .ok DataMsg
  | 0x86 => .ok CookieReply
  | _ => .error (.InvalidMessageType value)

@[simp] theorem tryFrom_toU8 (t : MsgType) : tryFrom t.toU8 = .ok t := by
  cases t <;> rfl

/-- A byte that parses as a type is that type's byte. -/
theorem toU8_of_tryFrom {value : UInt8} {t : MsgType} (h : tryFrom value = .ok t) :
    t.toU8 = value := by
  unfold tryFrom at h
  split at h <;> cases h <;> rfl

end MsgType

/-! ## Layouts -/

-- `Envelope<M>` around a payload of `n` bytes.
namespace Envelope

def msgType : Field := ⟨0, 1⟩
def reserved : Field := ⟨1, 3⟩
def payload (n : Nat) : Field := ⟨4, n⟩
def mac (n : Nat) : Field := ⟨4 + n, MAC_SIZE⟩
def cookie (n : Nat) : Field := ⟨4 + n + MAC_SIZE, COOKIE_SIZE⟩

/-- `size_of::<Envelope<M>>()`. -/
def size (n : Nat) : Nat := 4 + n + MAC_SIZE + COOKIE_SIZE

/-- A field of the payload, as a field of the envelope. -/
def field (f : Field) : Field := ⟨4 + f.off, f.len⟩

/-- `span_of!(Envelope<M>, msg_type..mac)`: what the mac covers. -/
def macSpan (n : Nat) : Field := ⟨0, 4 + n⟩

/-- `span_of!(Envelope<M>, msg_type..cookie)`: what the cookie covers. -/
def cookieSpan (n : Nat) : Field := ⟨0, 4 + n + MAC_SIZE⟩

end Envelope

-- `Biscuit`, the responder's handshake state carried by RespHello and InitConf.
namespace Biscuit

def pidi : Field := ⟨0, KEY_LEN⟩
def biscuitNo : Field := ⟨KEY_LEN, 12⟩
def ck : Field := ⟨KEY_LEN + 12, KEY_LEN⟩

end Biscuit

/-- `BISCUIT_PT_LEN`. -/
def BISCUIT_PT_LEN : Nat := 2 * KEY_LEN + 12

/-- `BISCUIT_CT_LEN`. -/
def BISCUIT_CT_LEN : Nat := BISCUIT_PT_LEN + XAEAD_NONCE_LEN + TAG_LEN

section Layouts

variable (P : Primitives)

namespace InitHello

def sidi : Field := ⟨0, 4⟩
def epki : Field := ⟨4, P.ephemeralKem.PK_LEN⟩
def sctr : Field := ⟨4 + P.ephemeralKem.PK_LEN, P.staticKem.CT_LEN⟩
def pidic : Field := ⟨4 + P.ephemeralKem.PK_LEN + P.staticKem.CT_LEN, TAG_LEN + 32⟩
def auth : Field := ⟨4 + P.ephemeralKem.PK_LEN + P.staticKem.CT_LEN + TAG_LEN + 32, TAG_LEN⟩
def size : Nat := 4 + P.ephemeralKem.PK_LEN + P.staticKem.CT_LEN + TAG_LEN + 32 + TAG_LEN

end InitHello

namespace RespHello

def sidr : Field := ⟨0, 4⟩
def sidi : Field := ⟨4, 4⟩
def ecti : Field := ⟨8, P.ephemeralKem.CT_LEN⟩
def scti : Field := ⟨8 + P.ephemeralKem.CT_LEN, P.staticKem.CT_LEN⟩
def auth : Field := ⟨8 + P.ephemeralKem.CT_LEN + P.staticKem.CT_LEN, TAG_LEN⟩
def biscuit : Field := ⟨8 + P.ephemeralKem.CT_LEN + P.staticKem.CT_LEN + TAG_LEN, BISCUIT_CT_LEN⟩
def size : Nat := 8 + P.ephemeralKem.CT_LEN + P.staticKem.CT_LEN + TAG_LEN + BISCUIT_CT_LEN

end RespHello

end Layouts

namespace InitConf

def sidi : Field := ⟨0, 4⟩
def sidr : Field := ⟨4, 4⟩
def biscuit : Field := ⟨8, BISCUIT_CT_LEN⟩
def auth : Field := ⟨8 + BISCUIT_CT_LEN, TAG_LEN⟩
def size : Nat := 8 + BISCUIT_CT_LEN + TAG_LEN

end InitConf

namespace EmptyData

def sid : Field := ⟨0, 4⟩
def ctr : Field := ⟨4, 8⟩
def auth : Field := ⟨12, TAG_LEN⟩
def size : Nat := 12 + TAG_LEN

end EmptyData

-- `CookieReplyInner`, and `CookieReply`, which pads it to the size of an `Envelope<InitHello>`.
namespace CookieReply

def msgType : Field := ⟨0, 1⟩
def reserved : Field := ⟨1, 3⟩
def sid : Field := ⟨4, 4⟩
def cookieEncrypted : Field := ⟨8, XAEAD_NONCE_LEN + COOKIE_SIZE + TAG_LEN⟩

/-- `size_of::<CookieReplyInner>()`. -/
def innerSize : Nat := 8 + XAEAD_NONCE_LEN + COOKIE_SIZE + TAG_LEN

def padding (P : Primitives) : Field :=
  ⟨innerSize, Envelope.size (InitHello.size P) - innerSize⟩

/-- `size_of::<CookieReply>()`. -/
def size (P : Primitives) : Nat := Envelope.size (InitHello.size P)

end CookieReply

/-! ## Facts of the envelope layout -/

namespace Envelope

variable {n : Nat} {f : Field}

theorem field_disjoint_mac (h : f.stop ≤ n) : (field f).Disjoint (mac n) := by
  simp only [field, mac, Field.Disjoint, Field.stop] at *
  omega

theorem field_disjoint_cookie (h : f.stop ≤ n) : (field f).Disjoint (cookie n) := by
  simp only [field, cookie, Field.Disjoint, Field.stop] at *
  omega

theorem field_disjoint_msgType (f : Field) : (field f).Disjoint msgType := by
  simp only [field, msgType, Field.Disjoint, Field.stop]
  omega

theorem mac_disjoint_macSpan (n : Nat) : (mac n).Disjoint (macSpan n) := by
  simp only [mac, macSpan, Field.Disjoint, Field.stop]
  omega

theorem cookie_disjoint_cookieSpan (n : Nat) : (cookie n).Disjoint (cookieSpan n) := by
  simp only [cookie, cookieSpan, Field.Disjoint, Field.stop]
  omega

theorem mac_disjoint_cookie (n : Nat) : (mac n).Disjoint (cookie n) := by
  simp only [mac, cookie, Field.Disjoint, Field.stop]
  omega

@[simp] theorem cookie_stop (n : Nat) : (cookie n).stop = size n := by
  simp only [cookie, size, Field.stop]

theorem mac_stop_le (n : Nat) : (mac n).stop ≤ size n := by
  simp [mac, size, Field.stop]

end Envelope

end Rosenpass
