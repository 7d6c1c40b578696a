/-
The command line of `rp` (`rp/src/cli.rs`): `Cli::parse`, and the two parsers it hands
the arguments of `exchange` to, `ExchangeOptions::parse` and `ExchangePeer::parse`.

The three share one peekable iterator; here each takes the arguments that are left and
returns what it leaves. `ExchangePeer::parse` stops before the next `peer` without
consuming it, so that `ExchangeOptions::parse` starts the next peer; `ExchangeOptions::parse`
consumes every argument that is left. Socket addresses and `u32`s are parsed by the
standard library: `parseAddr` and `parseU32` are parameters, and `A` is the type of
addresses. A `PathBuf` is the string it was made from.
-/
import Mathlib.Data.List.Basic

namespace Rosenpass.Rp

/-- `CommandType`: the command whose usage an error message carries. -/
inductive CommandType where
  | GenKey
  | PubKey
  | Exchange
  deriving DecidableEq, Repr

/-- `fatal(note, command)`: the note, then the usage of the command. -/
def fatal {α : Type} (note : String) : Option CommandType → Except String α
  | some .GenKey => .error (note ++ "\nUsage: rp genkey PRIVATE_KEYS_DIR")
  | some .PubKey => .error (note ++ "\nUsage: rp pubkey PRIVATE_KEYS_DIR PUBLIC_KEYS_DIR")
  | some .Exchange => .error (note ++ "\nUsage: rp exchange PRIVATE_KEYS_DIR [dev <device>] " ++
      "[listen <ip>:<port>] [peer PUBLIC_KEYS_DIR [endpoint <ip>:<port>] [persistent-keepalive <interval>] " ++
      "[allowed-ips <ip1>/<cidr1>[,<ip2>/<cidr2>]...]]...")
  | none => .error (note ++ "\nUsage: rp [verbose] genkey|pubkey|exchange [ARGS]...")

theorem fatal_eq_error {α : Type} (note : String) (c : Option CommandType) :
    ∃ e, (fatal note c : Except String α) = .error e := by
  rcases c with _ | _ | _ | _ <;> exact ⟨_, rfl⟩

theorem fatal_ne_ok {α : Type} (note : String) (c : Option CommandType) (a : α) : fatal note c ≠ .ok a := by
  obtain ⟨e, he⟩ := fatal_eq_error (α := α) note c
  rw [he]
  exact nofun

/-- `ExchangePeer`. -/
structure ExchangePeer (A : Type) where
  publicKeysDir : String
  endpoint : Option A
  persistentKeepalive : Option UInt32
  allowedIps : Option String
  deriving DecidableEq, Repr

/-- `ExchangeOptions`. -/
structure ExchangeOptions (A : Type) where
  verbose : Bool
  privateKeysDir : String
  dev : Option String
  listen : Option A
  peers : List (ExchangePeer A)
  deriving DecidableEq, Repr

/-- `Command`. -/
inductive Command (A : Type) where
  | GenKey (privateKeysDir : String)
  | PubKey (privateKeysDir publicKeysDir : String)
  | Exchange (options : ExchangeOptions A)
  | Help
  deriving DecidableEq, Repr

/-- `Cli`. -/
structure Cli (A : Type) where
  verbose : Bool
  command : Option (Command A)
  deriving DecidableEq, Repr

section Parse

variable {A : Type} (parseAddr : String → Option A) (parseU32 : String → Option UInt32)

/-- The loop of `ExchangePeer::parse` over the peer's options. It breaks before a `peer`,
which begins the next peer. -/
def ExchangePeer.parseOptions (peer : ExchangePeer A) : List String → Except String (ExchangePeer A × List String)
  | [] => .ok (peer, [])
  | x :: args =>
    if x = "peer" then .ok (peer, x :: args)
    else if x = "endpoint" then
      match args with
      | addr :: args =>
        match parseAddr addr with
        | some addr => ExchangePeer.parseOptions { peer with endpoint := some addr } args
        | none => fatal "invalid parameter for endpoint option" (some .Exchange)
      | [] => fatal "endpoint option requires parameter" (some .Exchange)
    else if x = "persistent-keepalive" then
      match args with
      | ka :: args =>
        match parseU32 ka with
        | some ka => ExchangePeer.parseOptions { peer with persistentKeepalive := some ka } args
        | none => fatal "invalid parameter for persistent-keepalive option" (some .Exchange)
      | [] => fatal "persistent-keepalive option requires parameter" (some .Exchange)
    else if x = "allowed-ips" then
      match args with
      | ips :: args => ExchangePeer.parseOptions { peer with allowedIps := some ips } args
      | [] => fatal "allowed-ips option requires parameter" (some .Exchange)
    else fatal ("Unknown option " ++ x) (some .Exchange)

@[simp] theorem ExchangePeer.parseOptions_nil {peer : ExchangePeer A} :
    ExchangePeer.parseOptions parseAddr parseU32 peer [] = .ok (peer, []) :=
  rfl

@[simp] theorem ExchangePeer.parseOptions_peer {peer : ExchangePeer A} {rest : List String} :
    ExchangePeer.parseOptions parseAddr parseU32 peer ("peer" :: rest) = .ok (peer, "peer" :: rest) := by
  rw [ExchangePeer.parseOptions.eq_def]
  simp

/-- `ExchangePeer::parse`: the public keys directory, then the peer's options. -/
def ExchangePeer.parse : List String → Except String (ExchangePeer A × List String)
  | publicKeysDir :: args =>
    ExchangePeer.parseOptions parseAddr parseU32
      { publicKeysDir, endpoint := none, persistentKeepalive := none, allowedIps := none } args
  | [] => fatal "Required positional argument: PUBLIC_KEYS_DIR" (some .Exchange)

/-- A peer's parse leaves no more than it was given. -/
theorem ExchangePeer.parseOptions_length {peer p : ExchangePeer A} {args rest : List String}
    (h : ExchangePeer.parseOptions parseAddr parseU32 peer args = .ok (p, rest)) : rest.length ≤ args.length := by
  fun_induction ExchangePeer.parseOptions parseAddr parseU32 peer args
  all_goals first
    | -- the two ends give back a suffix
      (simp only [Except.ok.injEq, Prod.mk.injEq] at h
       obtain ⟨-, rfl⟩ := h
       exact Nat.le_refl _)
    | -- an option with its value consumes two arguments
      (rename_i ih
       have := ih h
       simp only [List.length_cons]
       omega)
    | exact absurd h (fatal_ne_ok _ _ _)

theorem ExchangePeer.parse_length {p : ExchangePeer A} {args rest : List String}
    (h : ExchangePeer.parse parseAddr parseU32 args = .ok (p, rest)) : rest.length ≤ args.length := by
  cases args with
  | nil => simp [ExchangePeer.parse, fatal_ne_ok] at h
  | cons dir args =>
    have := ExchangePeer.parseOptions_length parseAddr parseU32 h
    simp only [List.length_cons]
    omega

/-- The loop of `ExchangeOptions::parse`: it consumes every argument left. -/
def ExchangeOptions.parseOptions (options : ExchangeOptions A) (args : List String) :
    Except String (ExchangeOptions A) :=
  match args with
  | [] => .ok options
  | x :: args =>
    if x = "dev" then
      match args with
      | device :: args => ExchangeOptions.parseOptions { options with dev := some device } args
      | [] => fatal "dev option requires parameter" (some .Exchange)
    else if x = "listen" then
      match args with
      | addr :: args =>
        match parseAddr addr with
        | some addr => ExchangeOptions.parseOptions { options with listen := some addr } args
        | none => fatal "invalid parameter for listen option" (some .Exchange)
      | [] => fatal "listen option requires parameter" (some .Exchange)
    else if x = "peer" then
      match h : ExchangePeer.parse parseAddr parseU32 args with
      | .ok (peer, rest) =>
        have := ExchangePeer.parse_length parseAddr parseU32 h
        ExchangeOptions.parseOptions { options with peers := options.peers ++ [peer] } rest
      | .error e => .error e
    else fatal ("Unknown option " ++ x) (some .Exchange)
termination_by args.length
decreasing_by all_goals simp only [List.length_cons]; omega

@[simp] theorem ExchangeOptions.parseOptions_nil {options : ExchangeOptions A} :
    ExchangeOptions.parseOptions parseAddr parseU32 options [] = .ok options := by
  rw [ExchangeOptions.parseOptions.eq_def]

/-- `ExchangeOptions::parse`: the private keys directory, then the options. -/
def ExchangeOptions.parse : List String → Except String (ExchangeOptions A)
  | privateKeysDir :: args =>
    ExchangeOptions.parseOptions parseAddr parseU32
      { verbose := false, privateKeysDir, dev := none, listen := none, peers := [] } args
  | [] => fatal "Required positional argument: PRIVATE_KEYS_DIR" (some .Exchange)

/-- The loop of `Cli::parse` over the arguments after the executable's name. -/
def Cli.parseArgs (cli : Cli A) : List String → Except String (Cli A)
  | [] => if cli.command.isNone then fatal "No command supplied" none else .ok cli
  | x :: args =>
    if x = "verbose" then Cli.parseArgs { cli with verbose := true } args
    else if x = "explain" then
      -- `eprintln!("WARN: the explain argument is no longer supported")`
      Cli.parseArgs cli args
    else if x = "genkey" then
      if cli.command.isSome then fatal "Too many commands supplied" none
      else match args with
        | privateKeysDir :: args => Cli.parseArgs { cli with command := some (.GenKey privateKeysDir) } args
        | [] => fatal "Required positional argument: PRIVATE_KEYS_DIR" (some .GenKey)
    else if x = "pubkey" then
      if cli.command.isSome then fatal "Too many commands supplied" none
      else match args with
        | privateKeysDir :: publicKeysDir :: args =>
          Cli.parseArgs { cli with command := some (.PubKey privateKeysDir publicKeysDir) } args
        | [_] => fatal "Required positional argument: PUBLIC_KEYS_DIR" (some .PubKey)
        | [] => fatal "Required positional argument: PRIVATE_KEYS_DIR" (some .PubKey)
    else if x = "exchange" then
      if cli.command.isSome then fatal "Too many commands supplied" none
      else match ExchangeOptions.parse parseAddr parseU32 args with
        -- nothing is left for the loop, which ends with the command set
        | .ok options => .ok { cli with command := some (.Exchange options) }
        | .error e => .error e
    else if x = "help" then Cli.parseArgs { cli with command := some .Help } args
    else fatal ("Unknown command " ++ x) none

theorem Cli.parseArgs_explain {cli : Cli A} {rest : List String} :
    Cli.parseArgs parseAddr parseU32 cli ("explain" :: rest) = Cli.parseArgs parseAddr parseU32 cli rest := by
  rw [Cli.parseArgs.eq_def]
  simp

/-- `Cli::parse(args)`: the first argument, the executable's name, is skipped. -/
def Cli.parse (args : List String) : Except String (Cli A) :=
  Cli.parseArgs parseAddr parseU32 { verbose := false, command := none } args.tail

/-! ## The documented grammar

`rp [verbose]... genkey D | pubkey D1 D2 | help |
exchange D [dev X] [listen ADDR] (peer P [endpoint ADDR] [persistent-keepalive N] [allowed-ips S])*`,
with each value as its token, and the command each vector stands for. -/

namespace Grammar

/-- A peer of `exchange`: its directory and the values of the options given. -/
structure Peer where
  publicKeysDir : String
  endpoint : Option String
  persistentKeepalive : Option String
  allowedIps : Option String

/-- A command of the grammar. -/
inductive Command where
  | genkey (privateKeysDir : String)
  | pubkey (privateKeysDir publicKeysDir : String)
  | help
  | exchange (privateKeysDir : String) (dev listen : Option String) (peers : List Peer)

/-- An option and its value, when it is given. -/
def opt (key : String) : Option String → List String
  | some v => [key, v]
  | none => []

def Peer.options (p : Peer) : List String :=
  opt "endpoint" p.endpoint ++ opt "persistent-keepalive" p.persistentKeepalive ++ opt "allowed-ips" p.allowedIps

def Peer.args (p : Peer) : List String := "peer" :: p.publicKeysDir :: p.options

def Command.args : Command → List String
  | .genkey d => ["genkey", d]
  | .pubkey d₁ d₂ => ["pubkey", d₁, d₂]
  | .help => ["help"]
  | .exchange d dev listen peers =>
    "exchange" :: d :: opt "dev" dev ++ opt "listen" listen ++ (peers.map Peer.args).flatten

/-- The vector: `rp`, `verbose` `k` times, and the command. -/
def args (k : Nat) (c : Command) : List String := "rp" :: List.replicate k "verbose" ++ c.args

/-- Every address of the peer is a socket address and its keepalive a `u32`. -/
def Peer.Valid (p : Peer) : Prop :=
  (∀ a ∈ p.endpoint, (parseAddr a).isSome) ∧ ∀ n ∈ p.persistentKeepalive, (parseU32 n).isSome

def Command.Valid : Command → Prop
  | .exchange _ _ listen peers => (∀ a ∈ listen, (parseAddr a).isSome) ∧ ∀ p ∈ peers, p.Valid parseAddr parseU32
  | _ => True

/-- The `ExchangePeer` a documented peer stands for. -/
def Peer.meaning (p : Peer) : ExchangePeer A :=
  { publicKeysDir := p.publicKeysDir, endpoint := p.endpoint.bind parseAddr,
    persistentKeepalive := p.persistentKeepalive.bind parseU32, allowedIps := p.allowedIps }

/-- The `Command` a documented command stands for. -/
def Command.meaning : Command → Rp.Command A
  | .genkey d => .GenKey d
  | .pubkey d₁ d₂ => .PubKey d₁ d₂
  | .help => .Help
  | .exchange d dev listen peers =>
    .Exchange
      { verbose := false, privateKeysDir := d, dev := dev, listen := listen.bind parseAddr,
        peers := peers.map (Peer.meaning parseAddr parseU32) }

/-- The commands of the usage. -/
def commands : List String := ["genkey", "pubkey", "exchange", "help"]

/-- A place in a vector of the grammar where a keyword comes next: after the `verbose`s,
or in an `exchange` after what it has so far. -/
inductive Position where
  | command (k : Nat)
  | exchange (k : Nat) (privateKeysDir : String) (dev listen : Option String) (peers : List Peer)

def Position.args : Position → List String
  | .command k => "rp" :: List.replicate k "verbose"
  | .exchange k d dev listen peers => Grammar.args k (.exchange d dev listen peers)

def Position.Valid : Position → Prop
  | .command _ => True
  | .exchange _ d dev listen peers => (Command.exchange d dev listen peers).Valid parseAddr parseU32

/-- The keywords of the usage at a place: those of the command line, those of `exchange`
before its first peer, and those of a peer after it. -/
def Position.keywords : Position → List String
  | .command _ => "verbose" :: commands
  | .exchange _ _ _ _ [] => ["dev", "listen", "peer"]
  | .exchange _ _ _ _ (_ :: _) => ["peer", "endpoint", "persistent-keepalive", "allowed-ips"]

/-- The keywords `Cli::parse` takes at a place: those of the usage, and the retired
`explain` on the command line. -/
def Position.known : Position → List String
  | .command k => "explain" :: (Position.command k).keywords
  | p => p.keywords

/-- A keyword at a place, with what it needs after it cut short. -/
def Position.Cut : Position → List String → Prop
  | .command _, m => m = ["genkey"] ∨ m = ["pubkey"] ∨ (∃ d, m = ["pubkey", d]) ∨ m = ["exchange"]
  | .exchange _ _ _ _ [], m => m = ["dev"] ∨ m = ["listen"] ∨ m = ["peer"]
  | .exchange _ _ _ _ (_ :: _), m =>
    m = ["peer"] ∨ m = ["endpoint"] ∨ m = ["persistent-keepalive"] ∨ m = ["allowed-ips"]

/-- An option at a place, with a value that is not a socket address or not a `u32`. -/
def Position.Unparsable : Position → String → String → Prop
  | .command _, _, _ => False
  | .exchange _ _ _ _ [], key, v => key = "listen" ∧ parseAddr v = none
  | .exchange _ _ _ _ (_ :: _), key, v =>
    (key = "endpoint" ∧ parseAddr v = none) ∨ (key = "persistent-keepalive" ∧ parseU32 v = none)

end Grammar

/-! ### Steps of the parsers -/

section Peer

variable {peer : ExchangePeer A} {rest : List String}

theorem ExchangePeer.parseOptions_endpoint {a : String} {x : A} (h : parseAddr a = some x) :
    ExchangePeer.parseOptions parseAddr parseU32 peer ("endpoint" :: a :: rest) =
      ExchangePeer.parseOptions parseAddr parseU32 { peer with endpoint := some x } rest := by
  simp [ExchangePeer.parseOptions, h]

theorem ExchangePeer.parseOptions_persistentKeepalive {n : String} {ka : UInt32} (h : parseU32 n = some ka) :
    ExchangePeer.parseOptions parseAddr parseU32 peer ("persistent-keepalive" :: n :: rest) =
      ExchangePeer.parseOptions parseAddr parseU32 { peer with persistentKeepalive := some ka } rest := by
  simp [ExchangePeer.parseOptions, h]

theorem ExchangePeer.parseOptions_allowedIps (ips : String) :
    ExchangePeer.parseOptions parseAddr parseU32 peer ("allowed-ips" :: ips :: rest) =
      ExchangePeer.parseOptions parseAddr parseU32 { peer with allowedIps := some ips } rest := by
  simp [ExchangePeer.parseOptions]

/-- Where the options of a peer end: at the end of the arguments, or at the next `peer`. -/
def Stops (rest : List String) : Prop := rest = [] ∨ ∃ r, rest = "peer" :: r

theorem ExchangePeer.parseOptions_of_stops (h : Stops rest) :
    ExchangePeer.parseOptions parseAddr parseU32 peer rest = .ok (peer, rest) := by
  rcases h with rfl | ⟨r, rfl⟩
  · rfl
  · exact ExchangePeer.parseOptions_peer parseAddr parseU32

theorem ExchangePeer.parseOptions_optEndpoint {e : Option String} (he : ∀ a ∈ e, (parseAddr a).isSome) :
    ExchangePeer.parseOptions parseAddr parseU32 peer (Grammar.opt "endpoint" e ++ rest) =
      ExchangePeer.parseOptions parseAddr parseU32 { peer with endpoint := (e.bind parseAddr).or peer.endpoint } rest := by
  cases e with
  | none => rfl
  | some a =>
    obtain ⟨x, hx⟩ := Option.isSome_iff_exists.1 (he a rfl)
    simp only [Grammar.opt, List.cons_append, List.nil_append, ExchangePeer.parseOptions_endpoint parseAddr parseU32 hx,
      Option.bind_some, hx, Option.some_or]

theorem ExchangePeer.parseOptions_optPersistentKeepalive {n : Option String} (hn : ∀ a ∈ n, (parseU32 a).isSome) :
    ExchangePeer.parseOptions parseAddr parseU32 peer (Grammar.opt "persistent-keepalive" n ++ rest) =
      ExchangePeer.parseOptions parseAddr parseU32
        { peer with persistentKeepalive := (n.bind parseU32).or peer.persistentKeepalive } rest := by
  cases n with
  | none => rfl
  | some a =>
    obtain ⟨ka, hka⟩ := Option.isSome_iff_exists.1 (hn a rfl)
    simp only [Grammar.opt, List.cons_append, List.nil_append,
      ExchangePeer.parseOptions_persistentKeepalive parseAddr parseU32 hka, Option.bind_some, hka, Option.some_or]

theorem ExchangePeer.parseOptions_optAllowedIps (ips : Option String) :
    ExchangePeer.parseOptions parseAddr parseU32 peer (Grammar.opt "allowed-ips" ips ++ rest) =
      ExchangePeer.parseOptions parseAddr parseU32 { peer with allowedIps := ips.or peer.allowedIps } rest := by
  cases ips with
  | none => rfl
  | some a =>
    simp only [Grammar.opt, List.cons_append, List.nil_append, ExchangePeer.parseOptions_allowedIps, Option.some_or]

/-- A documented peer, whatever follows it, is parsed to what it stands for, and the loop
goes on over what follows. -/
theorem ExchangePeer.parse_documented {p : Grammar.Peer} (hv : p.Valid parseAddr parseU32) (rest : List String) :
    ExchangePeer.parse parseAddr parseU32 (p.publicKeysDir :: p.options ++ rest) =
      ExchangePeer.parseOptions parseAddr parseU32 (p.meaning parseAddr parseU32) rest := by
  obtain ⟨he, hn⟩ := hv
  simp only [Grammar.Peer.options, List.append_assoc, List.cons_append, ExchangePeer.parse,
    ExchangePeer.parseOptions_optEndpoint parseAddr parseU32 he,
    ExchangePeer.parseOptions_optPersistentKeepalive parseAddr parseU32 hn,
    ExchangePeer.parseOptions_optAllowedIps, Option.or_none]
  rfl

end Peer

section Options

variable {options : ExchangeOptions A} {rest : List String}

theorem ExchangeOptions.parseOptions_dev (device : String) :
    ExchangeOptions.parseOptions parseAddr parseU32 options ("dev" :: device :: rest) =
      ExchangeOptions.parseOptions parseAddr parseU32 { options with dev := some device } rest := by
  rw [ExchangeOptions.parseOptions.eq_def]
  simp

theorem ExchangeOptions.parseOptions_listen {a : String} {x : A} (h : parseAddr a = some x) :
    ExchangeOptions.parseOptions parseAddr parseU32 options ("listen" :: a :: rest) =
      ExchangeOptions.parseOptions parseAddr parseU32 { options with listen := some x } rest := by
  rw [ExchangeOptions.parseOptions.eq_def]
  simp [h]

/-- A `peer` hands the arguments to `ExchangePeer::parse`, and the loop goes on over what
that leaves. -/
theorem ExchangeOptions.parseOptions_peer (args : List String) :
    ExchangeOptions.parseOptions parseAddr parseU32 options ("peer" :: args) =
      match ExchangePeer.parse parseAddr parseU32 args with
      | .ok (peer, rest) => ExchangeOptions.parseOptions parseAddr parseU32 { options with peers := options.peers ++ [peer] } rest
      | .error e => .error e := by
  rw [ExchangeOptions.parseOptions.eq_def]
  simp only [String.reduceEq, if_false, if_true]
  split
  · next heq => rw [heq]
  · next heq => rw [heq]

/-- A documented peer: the peer's loop goes on over what follows its options, and the
loop of the options goes on over what the peer leaves. -/
theorem ExchangeOptions.parseOptions_documentedPeer {p : Grammar.Peer} (hv : p.Valid parseAddr parseU32)
    (rest : List String) :
    ExchangeOptions.parseOptions parseAddr parseU32 options (p.args ++ rest) =
      match ExchangePeer.parseOptions parseAddr parseU32 (p.meaning parseAddr parseU32) rest with
      | .ok (peer, rest) => ExchangeOptions.parseOptions parseAddr parseU32 { options with peers := options.peers ++ [peer] } rest
      | .error e => .error e := by
  rw [Grammar.Peer.args, List.cons_append, ExchangeOptions.parseOptions_peer, List.cons_append,
    ← List.cons_append, ExchangePeer.parse_documented parseAddr parseU32 hv]

/-- Documented peers, up to where the last one's options end, are parsed in order. -/
theorem ExchangeOptions.parseOptions_documentedPeers :
    ∀ (ps : List Grammar.Peer), (∀ p ∈ ps, p.Valid parseAddr parseU32) → ∀ {options : ExchangeOptions A} {rest : List String},
      Stops rest → ExchangeOptions.parseOptions parseAddr parseU32 options ((ps.map Grammar.Peer.args).flatten ++ rest) =
        ExchangeOptions.parseOptions parseAddr parseU32
          { options with peers := options.peers ++ ps.map (Grammar.Peer.meaning parseAddr parseU32) } rest
  | [], _, _, _, _ => by simp
  | p :: ps, hv, options, rest, hrest => by
    -- the next peer, or the end, stops this peer's options
    have hstop : Stops ((ps.map Grammar.Peer.args).flatten ++ rest) := by
      cases ps with
      | nil => simpa using hrest
      | cons q qs => exact .inr ⟨q.publicKeysDir :: q.options ++ ((qs.map Grammar.Peer.args).flatten ++ rest),
          by simp [Grammar.Peer.args]⟩
    rw [List.map_cons, List.flatten_cons, List.append_assoc,
      ExchangeOptions.parseOptions_documentedPeer parseAddr parseU32 (hv p (by simp)),
      ExchangePeer.parseOptions_of_stops parseAddr parseU32 hstop]
    dsimp only
    rw [ExchangeOptions.parseOptions_documentedPeers ps (fun q hq => hv q (by simp [hq])) hrest]
    simp

theorem ExchangeOptions.parseOptions_optDev (dev : Option String) :
    ExchangeOptions.parseOptions parseAddr parseU32 options (Grammar.opt "dev" dev ++ rest) =
      ExchangeOptions.parseOptions parseAddr parseU32 { options with dev := dev.or options.dev } rest := by
  cases dev with
  | none => rfl
  | some d => simp only [Grammar.opt, List.cons_append, List.nil_append, ExchangeOptions.parseOptions_dev, Option.some_or]

theorem ExchangeOptions.parseOptions_optListen {listen : Option String} (hl : ∀ a ∈ listen, (parseAddr a).isSome) :
    ExchangeOptions.parseOptions parseAddr parseU32 options (Grammar.opt "listen" listen ++ rest) =
      ExchangeOptions.parseOptions parseAddr parseU32 { options with listen := (listen.bind parseAddr).or options.listen }
        rest := by
  cases listen with
  | none => rfl
  | some a =>
    obtain ⟨x, hx⟩ := Option.isSome_iff_exists.1 (hl a rfl)
    simp only [Grammar.opt, List.cons_append, List.nil_append, ExchangeOptions.parseOptions_listen parseAddr parseU32 hx,
      Option.bind_some, hx, Option.some_or]

/-- The head of a documented `exchange`, whatever follows it. -/
theorem ExchangeOptions.parse_documented (d : String) (dev : Option String) {listen : Option String}
    (hl : ∀ a ∈ listen, (parseAddr a).isSome) (rest : List String) :
    ExchangeOptions.parse parseAddr parseU32 (d :: Grammar.opt "dev" dev ++ Grammar.opt "listen" listen ++ rest) =
      ExchangeOptions.parseOptions parseAddr parseU32
        { verbose := false, privateKeysDir := d, dev := dev, listen := listen.bind parseAddr, peers := [] } rest := by
  simp only [List.append_assoc, List.cons_append, ExchangeOptions.parse, ExchangeOptions.parseOptions_optDev,
    ExchangeOptions.parseOptions_optListen parseAddr parseU32 hl, Option.or_none]

/-- The loops of `exchange` from a place on: the loop of its options when no peer has
begun, and otherwise the loop of the current peer's options, whose peer the options loop
then takes before it goes on. -/
def ExchangeOptions.resume (options : ExchangeOptions A) :
    Option (ExchangePeer A) → List String → Except String (ExchangeOptions A)
  | none, rest => ExchangeOptions.parseOptions parseAddr parseU32 options rest
  | some peer, rest =>
    match ExchangePeer.parseOptions parseAddr parseU32 peer rest with
    | .ok (peer, rest) => ExchangeOptions.parseOptions parseAddr parseU32 { options with peers := options.peers ++ [peer] } rest
    | .error e => .error e

/-- The options of `exchange` at the place `exchange k d dev listen peers`, and its current
peer. -/
def Grammar.Position.exchangeAt (d : String) (dev listen : Option String) (peers : List Grammar.Peer) :
    ExchangeOptions A × Option (ExchangePeer A) :=
  ({ verbose := false, privateKeysDir := d, dev := dev, listen := listen.bind parseAddr,
     peers := peers.dropLast.map (Grammar.Peer.meaning parseAddr parseU32) },
   peers.getLast?.map (Grammar.Peer.meaning parseAddr parseU32))

/-- The documented part of an `exchange`, whatever follows it, leaves the loops where the
place says. -/
theorem ExchangeOptions.parse_at {d : String} {dev listen : Option String} {peers : List Grammar.Peer}
    (hv : (Grammar.Command.exchange d dev listen peers).Valid parseAddr parseU32) (rest : List String) :
    ExchangeOptions.parse parseAddr parseU32 (d :: Grammar.opt "dev" dev ++ Grammar.opt "listen" listen ++
        ((peers.map Grammar.Peer.args).flatten ++ rest)) =
      ExchangeOptions.resume parseAddr parseU32 (Grammar.Position.exchangeAt parseAddr parseU32 d dev listen peers).1
        (Grammar.Position.exchangeAt parseAddr parseU32 d dev listen peers).2 rest := by
  obtain ⟨hl, hp⟩ := hv
  rw [ExchangeOptions.parse_documented parseAddr parseU32 d dev hl]
  -- no peer yet, or the peers before the last and then the last
  rcases List.eq_nil_or_concat peers with rfl | ⟨ps, q, rfl⟩
  · rfl
  · rw [List.concat_eq_append] at hp ⊢
    have hps : ∀ p ∈ ps, p.Valid parseAddr parseU32 := fun p hp' => hp p (by simp [hp'])
    have hq : q.Valid parseAddr parseU32 := hp q (by simp)
    have hstop : Stops (q.args ++ rest) := .inr ⟨_, by rw [Grammar.Peer.args, List.cons_append]⟩
    rw [List.map_append, List.flatten_append, List.append_assoc, List.map_singleton, List.flatten_singleton,
      ExchangeOptions.parseOptions_documentedPeers parseAddr parseU32 ps hps hstop,
      ExchangeOptions.parseOptions_documentedPeer parseAddr parseU32 hq]
    simp [Grammar.Position.exchangeAt, ExchangeOptions.resume]

/-! ### What the loops of `exchange` refuse -/

theorem ExchangeOptions.parseOptions_unknown {t : String} (ht : t ∉ ["dev", "listen", "peer"]) :
    ExchangeOptions.parseOptions parseAddr parseU32 options (t :: rest) = fatal ("Unknown option " ++ t) (some .Exchange) := by
  simp only [List.mem_cons, List.not_mem_nil, or_false, not_or] at ht
  rw [ExchangeOptions.parseOptions.eq_def]
  simp [ht.1, ht.2.1, ht.2.2]

theorem ExchangePeer.parseOptions_unknown {peer : ExchangePeer A} {t : String}
    (ht : t ∉ ["peer", "endpoint", "persistent-keepalive", "allowed-ips"]) :
    ExchangePeer.parseOptions parseAddr parseU32 peer (t :: rest) = fatal ("Unknown option " ++ t) (some .Exchange) := by
  simp only [List.mem_cons, List.not_mem_nil, or_false, not_or] at ht
  rw [ExchangePeer.parseOptions.eq_def]
  simp [ht.1, ht.2.1, ht.2.2.1, ht.2.2.2]

/-- An option of `exchange` at the end, without its value, is refused; so is a `peer`
without its directory. -/
theorem ExchangeOptions.parseOptions_cut {m : List String} (hm : m = ["dev"] ∨ m = ["listen"] ∨ m = ["peer"]) :
    ∃ e, ExchangeOptions.parseOptions parseAddr parseU32 options m = .error e := by
  rcases hm with rfl | rfl | rfl
  · rw [ExchangeOptions.parseOptions.eq_def]
    simp [fatal_eq_error]
  · rw [ExchangeOptions.parseOptions.eq_def]
    simp [fatal_eq_error]
  · -- `peer` without its directory: the refusal of `ExchangePeer::parse`
    obtain ⟨e, he⟩ := fatal_eq_error (α := ExchangePeer A × List String) "Required positional argument: PUBLIC_KEYS_DIR"
      (some .Exchange)
    rw [ExchangeOptions.parseOptions.eq_def]
    simp only [ExchangePeer.parse, reduceIte, String.reduceEq]
    split
    · next heq => exact absurd (he.symm.trans heq) nofun
    · exact ⟨_, rfl⟩

/-- An option of a peer at the end, without its value, is refused. -/
theorem ExchangePeer.parseOptions_cut {peer : ExchangePeer A} {m : List String}
    (hm : m = ["endpoint"] ∨ m = ["persistent-keepalive"] ∨ m = ["allowed-ips"]) :
    ∃ e, ExchangePeer.parseOptions parseAddr parseU32 peer m = .error e := by
  rcases hm with rfl | rfl | rfl <;>
    · rw [ExchangePeer.parseOptions.eq_def]
      simp [fatal_eq_error]

theorem ExchangeOptions.parseOptions_listen_none {a : String} (h : parseAddr a = none) :
    ∃ e, ExchangeOptions.parseOptions parseAddr parseU32 options ("listen" :: a :: rest) = .error e := by
  rw [ExchangeOptions.parseOptions.eq_def]
  simp [h, fatal_eq_error]

theorem ExchangePeer.parseOptions_unparsable {peer : ExchangePeer A} {key a : String}
    (h : (key = "endpoint" ∧ parseAddr a = none) ∨ (key = "persistent-keepalive" ∧ parseU32 a = none)) :
    ∃ e, ExchangePeer.parseOptions parseAddr parseU32 peer (key :: a :: rest) = .error e := by
  rcases h with ⟨rfl, h⟩ | ⟨rfl, h⟩ <;>
    · rw [ExchangePeer.parseOptions.eq_def]
      simp [h, fatal_eq_error]

/-- A refusal in the current peer's options is the refusal of `exchange`. -/
theorem ExchangeOptions.resume_some_of_error {peer : ExchangePeer A} {e : String}
    (h : ExchangePeer.parseOptions parseAddr parseU32 peer rest = .error e) :
    ExchangeOptions.resume parseAddr parseU32 options (some peer) rest = .error e := by
  simp only [ExchangeOptions.resume, h]

end Options

section Top

variable {cli : Cli A} {rest : List String}

theorem Cli.parseArgs_verbose (k : Nat) :
    Cli.parseArgs parseAddr parseU32 cli (List.replicate k "verbose" ++ rest) =
      Cli.parseArgs parseAddr parseU32 { cli with verbose := cli.verbose || decide (0 < k) } rest := by
  induction k generalizing cli with
  | zero => simp
  | succ k ih =>
    rw [List.replicate_succ, List.cons_append, Cli.parseArgs.eq_def]
    simp only [if_true, ih]
    simp

theorem Cli.parseArgs_nil_of_some {c : Command A} (h : cli.command = some c) :
    Cli.parseArgs parseAddr parseU32 cli [] = .ok cli := by
  rw [Cli.parseArgs.eq_def]
  simp [h]

theorem Cli.parseArgs_genkey (h : cli.command = none) (d : String) :
    Cli.parseArgs parseAddr parseU32 cli ("genkey" :: d :: rest) =
      Cli.parseArgs parseAddr parseU32 { cli with command := some (.GenKey d) } rest := by
  rw [Cli.parseArgs.eq_def]
  simp [h]

theorem Cli.parseArgs_pubkey (h : cli.command = none) (d₁ d₂ : String) :
    Cli.parseArgs parseAddr parseU32 cli ("pubkey" :: d₁ :: d₂ :: rest) =
      Cli.parseArgs parseAddr parseU32 { cli with command := some (.PubKey d₁ d₂) } rest := by
  rw [Cli.parseArgs.eq_def]
  simp [h]

theorem Cli.parseArgs_help :
    Cli.parseArgs parseAddr parseU32 cli ("help" :: rest) =
      Cli.parseArgs parseAddr parseU32 { cli with command := some .Help } rest := by
  rw [Cli.parseArgs.eq_def]
  simp

/-- `exchange` hands every argument after it to `ExchangeOptions::parse`. -/
theorem Cli.parseArgs_exchange (h : cli.command = none) :
    Cli.parseArgs parseAddr parseU32 cli ("exchange" :: rest) =
      match ExchangeOptions.parse parseAddr parseU32 rest with
      | .ok options => .ok { cli with command := some (.Exchange options) }
      | .error e => .error e := by
  rw [Cli.parseArgs.eq_def]
  simp [h]

theorem Cli.parseArgs_unknown {t : String} (ht : t ∉ ["explain", "verbose", "genkey", "pubkey", "exchange", "help"]) :
    Cli.parseArgs parseAddr parseU32 cli (t :: rest) = fatal ("Unknown command " ++ t) none := by
  simp only [List.mem_cons, List.not_mem_nil, or_false, not_or] at ht
  rw [Cli.parseArgs.eq_def]
  simp [ht.1, ht.2.1, ht.2.2.1, ht.2.2.2.1, ht.2.2.2.2.1, ht.2.2.2.2.2]

/-- A command without the directories it needs is refused. -/
theorem Cli.parseArgs_cut (h : cli.command = none) {m : List String}
    (hm : m = ["genkey"] ∨ m = ["pubkey"] ∨ (∃ d, m = ["pubkey", d]) ∨ m = ["exchange"]) :
    ∃ e, Cli.parseArgs parseAddr parseU32 cli m = .error e := by
  rcases hm with rfl | rfl | ⟨d, rfl⟩ | rfl
  · rw [Cli.parseArgs.eq_def]
    simp [h, fatal_eq_error]
  · rw [Cli.parseArgs.eq_def]
    simp [h, fatal_eq_error]
  · rw [Cli.parseArgs.eq_def]
    simp [h, fatal_eq_error]
  · -- `exchange` without its directory: the refusal of `ExchangeOptions::parse`
    obtain ⟨e, he⟩ := fatal_eq_error (α := ExchangeOptions A) "Required positional argument: PRIVATE_KEYS_DIR"
      (some .Exchange)
    rw [Cli.parseArgs.eq_def]
    simp [h, ExchangeOptions.parse, he]

/-- With no command among the arguments, the loop ends without one and refuses. -/
theorem Cli.parseArgs_of_no_command : ∀ {cli : Cli A} (args : List String), cli.command = none →
    (∀ t ∈ args, t ∉ Grammar.commands) → ∃ e, Cli.parseArgs parseAddr parseU32 cli args = .error e
  | cli, [], h, _ => by
    rw [Cli.parseArgs.eq_def]
    simp [h, fatal_eq_error]
  | cli, t :: args, h, ht => by
    have hrest : ∀ t ∈ args, t ∉ Grammar.commands := fun t' h' => ht t' (by simp [h'])
    have htc : t ∉ Grammar.commands := ht t (by simp)
    simp only [Grammar.commands, List.mem_cons, List.not_mem_nil, or_false, not_or] at htc
    -- `verbose` and `explain` go on without a command; anything else is unknown
    by_cases hv : t = "verbose"
    · subst hv
      rw [Cli.parseArgs.eq_def]
      have hrec : ∃ e, Cli.parseArgs parseAddr parseU32 { cli with verbose := true } args = .error e :=
        Cli.parseArgs_of_no_command args h hrest
      simpa using hrec
    · by_cases he : t = "explain"
      · subst he
        rw [Cli.parseArgs_explain]
        exact Cli.parseArgs_of_no_command args h hrest
      · rw [Cli.parseArgs_unknown parseAddr parseU32 (by simp [hv, he, htc.1, htc.2.1, htc.2.2.1, htc.2.2.2])]
        simp [fatal_eq_error]

end Top

/-- `Cli::parse` of a vector that goes on from an `exchange` place: what the loops of
`exchange` make of the rest. -/
theorem Cli.parse_exchangeAt {k : Nat} {d : String} {dev listen : Option String} {peers : List Grammar.Peer}
    (hv : (Grammar.Command.exchange d dev listen peers).Valid parseAddr parseU32) (rest : List String) :
    Cli.parse parseAddr parseU32 ((Grammar.Position.exchange k d dev listen peers).args ++ rest) =
      match ExchangeOptions.resume parseAddr parseU32 (Grammar.Position.exchangeAt parseAddr parseU32 d dev listen peers).1
          (Grammar.Position.exchangeAt parseAddr parseU32 d dev listen peers).2 rest with
      | .ok options => .ok { verbose := decide (0 < k), command := some (.Exchange options) }
      | .error e => .error e := by
  have hargs : (Grammar.Position.exchange k d dev listen peers).args ++ rest =
      "rp" :: (List.replicate k "verbose" ++ "exchange" :: (d :: Grammar.opt "dev" dev ++ Grammar.opt "listen" listen ++
        ((peers.map Grammar.Peer.args).flatten ++ rest))) := by
    simp [Grammar.Position.args, Grammar.args, Grammar.Command.args]
  rw [hargs, Cli.parse, List.tail_cons, Cli.parseArgs_verbose, Cli.parseArgs_exchange parseAddr parseU32 rfl,
    ExchangeOptions.parse_at parseAddr parseU32 hv]
  simp

/-- A vector that goes on from an `exchange` place with what its loops refuse is refused. -/
theorem Cli.parse_exchangeAt_error {k : Nat} {d : String} {dev listen : Option String} {peers : List Grammar.Peer}
    (hv : (Grammar.Command.exchange d dev listen peers).Valid parseAddr parseU32) {rest : List String} {e : String}
    (h : ExchangeOptions.resume parseAddr parseU32 (Grammar.Position.exchangeAt parseAddr parseU32 d dev listen peers).1
      (Grammar.Position.exchangeAt parseAddr parseU32 d dev listen peers).2 rest = .error e) :
    Cli.parse parseAddr parseU32 ((Grammar.Position.exchange k d dev listen peers).args ++ rest) = .error e := by
  rw [Cli.parse_exchangeAt parseAddr parseU32 hv, h]

/-- **Every vector of the documented grammar parses to what it stands for**: the verbose
flag is set by any `verbose`, and the command carries the given values, with the peers in
their order. -/
theorem Cli.parse_documented (k : Nat) (c : Grammar.Command) (hv : c.Valid parseAddr parseU32) :
    Cli.parse parseAddr parseU32 (Grammar.args k c) =
      .ok { verbose := decide (0 < k), command := some (c.meaning parseAddr parseU32) } := by
  simp only [Cli.parse, Grammar.args, List.cons_append, List.tail_cons, Cli.parseArgs_verbose, Bool.false_or]
  cases c with
  | genkey d =>
    rw [Grammar.Command.args, Cli.parseArgs_genkey parseAddr parseU32 rfl, Cli.parseArgs_nil_of_some parseAddr parseU32 rfl]
    rfl
  | pubkey d₁ d₂ =>
    rw [Grammar.Command.args, Cli.parseArgs_pubkey parseAddr parseU32 rfl, Cli.parseArgs_nil_of_some parseAddr parseU32 rfl]
    rfl
  | help =>
    rw [Grammar.Command.args, Cli.parseArgs_help, Cli.parseArgs_nil_of_some parseAddr parseU32 rfl]
    rfl
  | exchange d dev listen peers =>
    obtain ⟨hl, hp⟩ := hv
    have hargs : (Grammar.Command.exchange d dev listen peers).args =
        "exchange" :: (d :: Grammar.opt "dev" dev ++ Grammar.opt "listen" listen ++
          ((peers.map Grammar.Peer.args).flatten ++ [])) := by
      simp [Grammar.Command.args]
    rw [hargs, Cli.parseArgs_exchange parseAddr parseU32 rfl,
      ExchangeOptions.parse_documented parseAddr parseU32 d dev hl,
      ExchangeOptions.parseOptions_documentedPeers parseAddr parseU32 peers hp (.inl rfl),
      ExchangeOptions.parseOptions_nil]
    simp [Grammar.Command.meaning]

/-- `Cli::parse` at the place after the `verbose`s goes on with the loop over the rest. -/
theorem Cli.parse_commandAt (k : Nat) (rest : List String) :
    Cli.parse parseAddr parseU32 ((Grammar.Position.command k).args ++ rest) =
      Cli.parseArgs parseAddr parseU32 { verbose := decide (0 < k), command := none } rest := by
  simp [Grammar.Position.args, Cli.parse, Cli.parseArgs_verbose]

/-- The current peer of an `exchange` place with peers is the last of them. -/
theorem Grammar.Position.exchangeAt_snd_cons (d : String) (dev listen : Option String) (q : Grammar.Peer)
    (qs : List Grammar.Peer) :
    ∃ x, (Grammar.Position.exchangeAt parseAddr parseU32 d dev listen (q :: qs)).2 = some x :=
  ⟨Grammar.Peer.meaning parseAddr parseU32 ((q :: qs).getLast (List.cons_ne_nil q qs)),
    by simp [Grammar.Position.exchangeAt, List.getLast?_eq_some_getLast (List.cons_ne_nil q qs)]⟩

/-- **`Cli::parse` and the documented grammar.** Every vector of the grammar parses to the
command it describes. A vector is refused when it has no command; when a token where a
keyword comes next is none that `Cli::parse` takes there; when a keyword's values are cut
short; and when an address or a number does not parse. `explain`, which the usage does not
have, is taken where a command comes next and skipped. -/
theorem cli_parse_grammar :
    (∀ (k : Nat) (c : Grammar.Command), c.Valid parseAddr parseU32 →
      Cli.parse parseAddr parseU32 (Grammar.args k c) =
        .ok { verbose := decide (0 < k), command := some (c.meaning parseAddr parseU32) }) ∧
    (∀ v : List String, (∀ t ∈ v.tail, t ∉ Grammar.commands) → ∃ e, Cli.parse parseAddr parseU32 v = .error e) ∧
    (∀ (p : Grammar.Position) (t : String) (rest : List String), p.Valid parseAddr parseU32 → t ∉ p.known →
      ∃ e, Cli.parse parseAddr parseU32 (p.args ++ t :: rest) = .error e) ∧
    (∀ (p : Grammar.Position) (m : List String), p.Valid parseAddr parseU32 → p.Cut m →
      ∃ e, Cli.parse parseAddr parseU32 (p.args ++ m) = .error e) ∧
    (∀ (p : Grammar.Position) (key value : String) (rest : List String), p.Valid parseAddr parseU32 →
      p.Unparsable parseAddr parseU32 key value →
      ∃ e, Cli.parse parseAddr parseU32 (p.args ++ key :: value :: rest) = .error e) ∧
    (∀ (k : Nat) (rest : List String),
      Cli.parse parseAddr parseU32 ((Grammar.Position.command k).args ++ "explain" :: rest) =
        Cli.parse parseAddr parseU32 ((Grammar.Position.command k).args ++ rest)) := by
  refine ⟨Cli.parse_documented parseAddr parseU32, fun v hv => Cli.parseArgs_of_no_command parseAddr parseU32 v.tail rfl hv,
    ?_, ?_, ?_, fun k rest => by rw [Cli.parse_commandAt, Cli.parse_commandAt, Cli.parseArgs_explain]⟩
  · -- an unknown token: refused by the loop of the place
    rintro (k | ⟨k, d, dev, listen, _ | ⟨q, qs⟩⟩) t rest hp ht
    · rw [Cli.parse_commandAt, Cli.parseArgs_unknown parseAddr parseU32 ht]
      exact fatal_eq_error _ _
    · obtain ⟨e, he⟩ := fatal_eq_error (α := ExchangeOptions A) ("Unknown option " ++ t) (some .Exchange)
      exact ⟨e, Cli.parse_exchangeAt_error parseAddr parseU32 hp
        ((ExchangeOptions.parseOptions_unknown parseAddr parseU32 ht).trans he)⟩
    · obtain ⟨x, hx⟩ := Grammar.Position.exchangeAt_snd_cons parseAddr parseU32 d dev listen q qs
      obtain ⟨e, he⟩ := fatal_eq_error (α := ExchangePeer A × List String) ("Unknown option " ++ t) (some .Exchange)
      refine ⟨e, Cli.parse_exchangeAt_error parseAddr parseU32 hp ?_⟩
      rw [hx]
      exact ExchangeOptions.resume_some_of_error parseAddr parseU32
        ((ExchangePeer.parseOptions_unknown parseAddr parseU32 ht).trans he)
  · -- a keyword cut short
    rintro (k | ⟨k, d, dev, listen, _ | ⟨q, qs⟩⟩) m hp hm
    · rw [Cli.parse_commandAt]
      exact Cli.parseArgs_cut parseAddr parseU32 rfl hm
    · obtain ⟨e, he⟩ : ∃ e, ExchangeOptions.parseOptions parseAddr parseU32
          (Grammar.Position.exchangeAt parseAddr parseU32 d dev listen []).1 m = .error e :=
        ExchangeOptions.parseOptions_cut parseAddr parseU32 hm
      exact ⟨e, Cli.parse_exchangeAt_error parseAddr parseU32 hp he⟩
    · obtain ⟨x, hx⟩ := Grammar.Position.exchangeAt_snd_cons parseAddr parseU32 d dev listen q qs
      rcases hm with rfl | hm
      · -- the current peer ends, and the next has no directory
        obtain ⟨e, he⟩ : ∃ e, ExchangeOptions.parseOptions parseAddr parseU32
            { (Grammar.Position.exchangeAt parseAddr parseU32 d dev listen (q :: qs)).1 with
              peers := (Grammar.Position.exchangeAt parseAddr parseU32 d dev listen (q :: qs)).1.peers ++ [x] }
            ["peer"] = .error e :=
          ExchangeOptions.parseOptions_cut parseAddr parseU32 (.inr (.inr rfl))
        refine ⟨e, Cli.parse_exchangeAt_error parseAddr parseU32 hp ?_⟩
        rw [hx, ExchangeOptions.resume, ExchangePeer.parseOptions_peer]
        exact he
      · obtain ⟨e, he⟩ : ∃ e, ExchangePeer.parseOptions parseAddr parseU32 x m = .error e :=
          ExchangePeer.parseOptions_cut parseAddr parseU32 hm
        exact ⟨e, Cli.parse_exchangeAt_error parseAddr parseU32 hp
          (by rw [hx]; exact ExchangeOptions.resume_some_of_error parseAddr parseU32 he)⟩
  · -- an address or a number that does not parse
    rintro (k | ⟨k, d, dev, listen, _ | ⟨q, qs⟩⟩) key value rest hp hu
    · exact hu.elim
    · obtain ⟨rfl, hu⟩ := hu
      obtain ⟨e, he⟩ : ∃ e, ExchangeOptions.parseOptions parseAddr parseU32
          (Grammar.Position.exchangeAt parseAddr parseU32 d dev listen []).1 ("listen" :: value :: rest) = .error e :=
        ExchangeOptions.parseOptions_listen_none parseAddr parseU32 hu
      exact ⟨e, Cli.parse_exchangeAt_error parseAddr parseU32 hp he⟩
    · obtain ⟨x, hx⟩ := Grammar.Position.exchangeAt_snd_cons parseAddr parseU32 d dev listen q qs
      obtain ⟨e, he⟩ : ∃ e, ExchangePeer.parseOptions parseAddr parseU32 x (key :: value :: rest) = .error e :=
        ExchangePeer.parseOptions_unparsable parseAddr parseU32 hu
      exact ⟨e, Cli.parse_exchangeAt_error parseAddr parseU32 hp
        (by rw [hx]; exact ExchangeOptions.resume_some_of_error parseAddr parseU32 he)⟩

end Parse

theorem cli_parse_grammar_fakedir :
    (Grammar.Command.exchange "./fakedir" (some "devname") none
        [⟨"./fakedir2", none, none, some "123.234.11.0/24,1.1.1.0/24"⟩]).Valid
      (fun _ => (none : Option Unit)) (fun _ => none) ∧
    Cli.parse (fun _ => (none : Option Unit)) (fun _ => none)
        (Grammar.args 1 (.exchange "./fakedir" (some "devname") none
          [⟨"./fakedir2", none, none, some "123.234.11.0/24,1.1.1.0/24"⟩])) =
      .ok { verbose := true, command := some (.Exchange
        { verbose := false, privateKeysDir := "./fakedir", dev := some "devname", listen := none,
          peers := [⟨"./fakedir2", none, none, some "123.234.11.0/24,1.1.1.0/24"⟩] }) } ∧
    (∃ e, Cli.parse (fun _ => (none : Option Unit)) (fun _ => none) ["rp", "verbose"] = .error e) ∧
    (∃ e, Cli.parse (fun _ => (none : Option Unit)) (fun _ => none)
      ((Grammar.Position.command 0).args ++ ["thiscommanddoesntexist", "genkey", "./fakedir/"]) = .error e) ∧
    (∃ e, Cli.parse (fun _ => (none : Option Unit)) (fun _ => none)
      ((Grammar.Position.exchange 0 "./fakedir" none none []).args ++ ["listen"]) = .error e) ∧
    (∃ e, Cli.parse (fun _ => (none : Option Unit)) (fun _ => none)
      ((Grammar.Position.exchange 0 "./fakedir" none none []).args ++ ["listen", "notarealip"]) = .error e) ∧
    Cli.parse (fun _ => (none : Option Unit)) (fun _ => none) ((Grammar.Position.command 0).args ++ ["explain", "help"]) =
      Cli.parse (fun _ => (none : Option Unit)) (fun _ => none) ((Grammar.Position.command 0).args ++ ["help"]) := by
  have hv : (Grammar.Command.exchange "./fakedir" (some "devname") none
      [⟨"./fakedir2", none, none, some "123.234.11.0/24,1.1.1.0/24"⟩]).Valid
      (fun _ => (none : Option Unit)) (fun _ => none) := by
    simp [Grammar.Command.Valid, Grammar.Peer.Valid]
  obtain ⟨hok, hnone, hunknown, hcut, hunparsable, hexplain⟩ := cli_parse_grammar (fun _ => (none : Option Unit)) (fun _ => none)
  exact ⟨hv, hok 1 _ hv, hnone _ (by decide), hunknown (.command 0) _ _ trivial (by decide),
    hcut (.exchange 0 "./fakedir" none none []) _ (by simp [Grammar.Position.Valid, Grammar.Command.Valid]) (.inr (.inl rfl)),
    hunparsable (.exchange 0 "./fakedir" none none []) _ _ [] (by simp [Grammar.Position.Valid, Grammar.Command.Valid]) ⟨rfl, rfl⟩,
    hexplain 0 ["help"]⟩

/-- `explain` is no keyword of the usage, yet where a command comes next `Cli::parse` takes
it, and the vector is accepted. -/
theorem cli_parse_accepts_explain :
    "explain" ∉ (Grammar.Position.command 0).keywords ∧
    Cli.parse (fun _ => (none : Option Unit)) (fun _ => none) ((Grammar.Position.command 0).args ++ ["explain", "help"]) =
      .ok { verbose := false, command := some .Help } := by
  decide

end Rosenpass.Rp
