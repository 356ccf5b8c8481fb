import MemoFlow.Cache.Basic
import MemoFlow.Settings.Config
import MemoFlow.Tensor.Blas

/-!
# Choice of an engine

Operations go to the engine of a handle and, when it fails or lacks the operation, to the engines
after it. Faults are counted; an engine with too many of them is left out from then on. Results of
costly operations are kept in a cache.

* `PerEngine`, `Backend`, `FaultRule`, `Handle`, `Degradation`: the parts;
* **`Dispatcher`**, `Dispatcher.new`: the state;
* `Dispatcher.select`, `Dispatcher.migrate`, `Dispatcher.move`: handles;
* `Dispatcher.search`, **`Dispatcher.op`**: an operation, with the search for an engine.
-/

namespace MemoFlow

/-! ## Engines -/

/-- One thing for each engine. -/
structure PerEngine (β : Type) where
  /-- The library. -/
  blas : β
  /-- The templates. -/
  eigen : β
  /-- The plain loops. -/
  native : β
deriving DecidableEq, Repr, Inhabited

namespace PerEngine

variable {β : Type}

/-- The same for all engines. -/
def const (b : β) : PerEngine β := ⟨b, b, b⟩

/-- What belongs to an engine. -/
def get (p : PerEngine β) : Engine → β
  | .blas => p.blas
  | .eigen => p.eigen
  | .native => p.native

/-- Change what belongs to an engine. -/
def modify (p : PerEngine β) (e : Engine) (f : β → β) : PerEngine β :=
  match e with
  | .blas => { p with blas := f p.blas }
  | .eigen => { p with eigen := f p.eigen }
  | .native => { p with native := f p.native }

theorem get_modify (p : PerEngine β) (e k : Engine) (f : β → β) :
    (p.modify e f).get k = if k = e then f (p.get e) else p.get k := by
  cases e <;> cases k <;> rfl

end PerEngine

/-- What an engine does with operands that were checked. -/
abbrev Routine (α : Type) : Type := List (Tensor α) → Except OpFailure (List (Tensor α))

/-- **An engine as it was found.** -/
structure Backend (α : Type) where
  /-- The device it runs on. -/
  device : String
  /-- Whether it can be used. -/
  available : Bool
  /-- Why it cannot. -/
  reason : String
  /-- The routine for an operation on operands of a type. -/
  routine? : Op → DType → Option (Routine α)

/-- Faults that are injected: into one engine, for one operation or for all of them. -/
structure FaultRule where
  /-- The engine. -/
  engine : Engine
  /-- The operation, all of them when empty. -/
  op : String
deriving DecidableEq, Repr

namespace FaultRule

/-- The rule of an entry `engine` or `engine:op`. -/
def ofEntry? (s : String) : Option FaultRule :=
  let cs := s.toList
  (Engine.ofName? (String.ofList (cs.takeWhile (· ≠ ':')))).map fun e =>
    ⟨e, String.ofList ((cs.dropWhile (· ≠ ':')).drop 1)⟩

/-- Whether the rule makes an operation fail. -/
def hits (r : FaultRule) (e : Engine) (o : Op) : Bool :=
  r.engine = e && (r.op = "" || r.op = o.name)

end FaultRule

/-- The permission to run operations through an engine. Each new one has a higher generation. -/
structure Handle where
  /-- The engine. -/
  engine : Engine := .native
  /-- Its device. -/
  device : String := ""
  /-- The generation. -/
  generation : Nat := 0
deriving DecidableEq, Repr, Inhabited

/-- A fault in the log. -/
structure Degradation where
  /-- The number of the entry. -/
  sequence : Nat
  /-- The engine that failed. -/
  source : Engine
  /-- The engine that served the operation, the failing one when none could. -/
  target : Engine
  /-- The operation. -/
  op : Op
  /-- What the last failing engine said. -/
  reason : String
  /-- Whether the operation was served. -/
  recovered : Bool
deriving DecidableEq, Repr

/-- Why a request is not served. -/
inductive DispatchError where
  /-- The operands are refused. -/
  | operands (e : TensorError)
  /-- The engine that the settings ask for cannot be used. -/
  | forced (e : Engine) (reason : String)
  /-- No engine can be used. -/
  | nothing
  /-- The engine of the handle cannot be used. -/
  | handle (e : Engine)
  /-- All engines failed or lack the operation. -/
  | exhausted (o : Op) (reason : String)
  /-- The target of a migration cannot be used. -/
  | target (e : Engine) (reason : String)
  /-- The target of a migration had too many faults. -/
  | degradedTarget (e : Engine)
  /-- A tensor cannot be moved. -/
  | move (e : Engine)
deriving DecidableEq, Repr

/-- The text of the error. -/
def DispatchError.message : DispatchError → String
  | .operands e => e.message
  | .forced e reason => "forced tensor backend " ++ e.name ++ " is unavailable: " ++ reason
  | .nothing => "no tensor backend is available"
  | .handle e => "handle backend " ++ e.name ++ " is unavailable"
  | .exhausted o reason =>
    "no tensor backend could service '" ++ o.name ++ "'" ++
      (if reason = "" then "" else ": " ++ reason)
  | .target e reason => "cannot migrate to " ++ e.name ++ ": " ++ reason
  | .degradedTarget e => "cannot migrate to degraded backend " ++ e.name
  | .move e => "cannot move tensor to " ++ e.name

/-! ## The state -/

/-- Counters of operations. -/
structure DispatchStats where
  /-- Operations that passed the checks. -/
  ops : Nat := 0
  /-- Results taken from the cache. -/
  cacheHits : Nat := 0
  /-- Operations served after a fault. -/
  fallbacks : Nat := 0
  /-- Changes of the engine. -/
  migrations : Nat := 0
  /-- Operations that each engine served. -/
  served : PerEngine Nat := .const 0
  /-- Faults of each engine. -/
  faults : PerEngine Nat := .const 0
deriving DecidableEq, Repr

/-- **The state of the dispatcher.** -/
structure Dispatcher (α : Type) where
  /-- The settings. -/
  config : TensorConfig
  /-- The engines. -/
  backends : PerEngine (Backend α)
  /-- The selected handle. -/
  current : Option Handle := none
  /-- The generation of the last handle. -/
  generation : Nat := 0
  /-- Engines that are left out. -/
  degraded : PerEngine Bool := .const false
  /-- The log of faults, the first one first. -/
  log : List Degradation := []
  /-- The counters. -/
  stats : DispatchStats := { }

namespace Dispatcher

variable {α : Type}

/-- The engine of a kind. -/
def backend (d : Dispatcher α) (e : Engine) : Backend α := d.backends.get e

/-- The rules for injected faults that the settings give. -/
def rules (d : Dispatcher α) : List FaultRule := d.config.faults.filterMap FaultRule.ofEntry?

/-- Whether a fault is injected. -/
def isInjected (d : Dispatcher α) (e : Engine) (o : Op) : Bool := d.rules.any fun r => r.hits e o

/-- Switch off what the settings disable. -/
def disable (engines : List Engine) (e : Engine) (b : Backend α) : Backend α :=
  if engines.contains e then { b with available := false, reason := "disabled by configuration" }
  else b

/-- The note on an engine that was found. -/
def probeNote (d : Dispatcher α) (e : Engine) : Note :=
  let b := d.backend e
  .plain "tensor" ("probe " ++ e.name ++ " available=" ++ (if b.available then "1" else "0") ++
    " device=" ++ b.device ++ (if b.available then "" else " reason=") ++ b.reason)

/-- A dispatcher with the engines that were found. -/
def new (config : TensorConfig) (found : PerEngine (Backend α)) : Told (Dispatcher α) :=
  let d : Dispatcher α :=
    { config := config
      backends := ⟨disable config.disabled .blas found.blas,
        disable config.disabled .eigen found.eigen,
        disable config.disabled .native found.native⟩ }
  ⟨d, ((config.faults.filter fun s => (FaultRule.ofEntry? s).isNone).map fun s =>
      .warn "tensor" ("ignoring fault rule '" ++ untilNul s ++ "': unknown backend")) ++
    Engine.all.map d.probeNote⟩

/-- Change the counters. -/
def count (d : Dispatcher α) (f : DispatchStats → DispatchStats) : Dispatcher α :=
  { d with stats := f d.stats }

/-! ## Handles -/

/-- Select a new handle of an engine. -/
def renew (d : Dispatcher α) (e : Engine) : Handle × Dispatcher α :=
  let h : Handle := ⟨e, (d.backend e).device, d.generation + 1⟩
  (h, { d with current := some h, generation := d.generation + 1 })

/-- The engine to select: the one that the settings ask for, or else the first that can be used. -/
def choice (d : Dispatcher α) : Except DispatchError Engine :=
  match d.config.forced with
  | some e => if (d.backend e).available then .ok e else .error (.forced e (d.backend e).reason)
  | none =>
    match Engine.all.find? fun e => (d.backend e).available with
    | some e => .ok e
    | none => .error .nothing

/-- **The selected handle**; the first call selects it. -/
def select (d : Dispatcher α) : Told (Except DispatchError Handle × Dispatcher α) :=
  match d.current with
  | some h => ⟨(.ok h, d), []⟩
  | none =>
    match d.choice with
    | .error e => ⟨(.error e, d), []⟩
    | .ok e =>
      let (h, d) := d.renew e
      ⟨(.ok h, d), [.plain "tensor" ("selected " ++ e.name ++ " (" ++ h.device ++ ")")]⟩

/-- Select a handle of another engine. -/
def migrate (d : Dispatcher α) (h : Handle) (target : Engine) :
    Told (Except DispatchError Handle × Dispatcher α) :=
  if !(d.backend target).available then
    ⟨(.error (.target target (d.backend target).reason), d), []⟩
  else if d.degraded.get target then ⟨(.error (.degradedTarget target), d), []⟩
  else
    let (k, d) := d.renew target
    ⟨(.ok k, d.count fun s => { s with migrations := s.migrations + 1 }),
      [.plain "tensor" ("migrate " ++ h.engine.name ++ " -> " ++ target.name ++ " generation=" ++
        toString k.generation)]⟩

/-- A tensor owned by the engine of a handle. -/
def move (d : Dispatcher α) (t : Tensor α) (h : Handle) : Except DispatchError (Tensor α) :=
  if (d.backend h.engine).available then .ok (t.onEngine h.engine)
  else .error (.move h.engine)

/-! ## Operations -/

/-- The routine for an operation when the engine may be used for it. -/
def usable? (d : Dispatcher α) (o : Op) (t : DType) (e : Engine) : Option (Routine α) :=
  if (d.backend e).available && !d.degraded.get e then (d.backend e).routine? o t else none

/-- Run a routine, unless a fault is injected. -/
def attempt (d : Dispatcher α) (o : Op) (e : Engine) (f : Routine α) (args : List (Tensor α)) :
    Except OpFailure (List (Tensor α)) :=
  if d.isInjected e o then .error (.fault (e.name ++ ": injected device fault")) else f args

/-- Count a fault; an engine with too many of them is left out. -/
def recordFault (d : Dispatcher α) (o : Op) (e : Engine) (reason : String) :
    Told (Dispatcher α) :=
  let n := d.stats.faults.get e + 1
  let fresh : Bool := decide (d.config.maxFaults.toNat ≤ n) && !d.degraded.get e
  let d := d.count fun s => { s with faults := s.faults.modify e (· + 1) }
  ⟨if fresh then { d with degraded := d.degraded.modify e fun _ => true } else d,
    .warn "tensor" (o.name ++ " failed on " ++ e.name ++ ": " ++ reason) ::
      if fresh then
        [.warn "tensor" (e.name ++ " marked degraded after " ++
          toString d.config.maxFaults.toNat ++ " faults")]
      else []⟩

/-- How the search for an engine ends. -/
inductive Service (α : Type) where
  /-- An engine served the operation. -/
  | served (e : Engine) (out : List (Tensor α))
  /-- An engine refused the operands. -/
  | refused (e : TensorError)
  /-- No engine is left. -/
  | unserved

/-- A search for an engine on its way. -/
structure Search (α : Type) where
  /-- The dispatcher. -/
  state : Dispatcher α
  /-- The engines that failed, the first one first. -/
  failed : List Engine := []
  /-- What the last of them said. -/
  reason : String := ""

/-- **Try engines one after the other**; faults lead on to the next one. -/
def search (o : Op) (t : DType) (args : List (Tensor α)) :
    List Engine → Search α → Told (Service α × Search α)
  | [], s => ⟨(.unserved, s), []⟩
  | e :: es, s =>
    match s.state.usable? o t e with
    | none => search o t args es s
    | some f =>
      match s.state.attempt o e f args with
      | .ok out => ⟨(.served e out, s), []⟩
      | .error (.refused r) => ⟨(.refused r, s), []⟩
      | .error (.fault reason) => do
        let d ← s.state.recordFault o e reason
        search o t args es ⟨d, s.failed ++ [e], reason⟩

/-- Write faults to the log. -/
def logFaults (d : Dispatcher α) (o : Op) (reason : String) (target : Option Engine)
    (failed : List Engine) : Dispatcher α :=
  failed.foldl (fun d e =>
    { d with log := d.log ++
        [⟨d.log.length + 1, e, target.getD e, o, reason, target.isSome⟩] }) d

/-- Count and log a served operation. -/
def recordServed (s : Search α) (o : Op) (e : Engine) : Dispatcher α :=
  let d := s.state.count fun st =>
    { st with
      served := st.served.modify e (· + 1)
      fallbacks := if s.failed.isEmpty then st.fallbacks else st.fallbacks + 1 }
  d.logFaults o s.reason (some e) s.failed

/-- Results that were kept. -/
abbrev Results (α : Type) : Type := Cache (List (Tensor α))

/-- Look up a result, when there is a cache and the operation is worth a place in it. -/
def kept? (cache : Option (Results α)) (now : Int64) (key : Fingerprint) (wanted : Bool) :
    Told (Option (List (Tensor α)) × Option (Results α)) :=
  match cache with
  | some c => if wanted then (c.get now key).map fun (v, c) => (v, some c) else ⟨(none, some c), []⟩
  | none => ⟨(none, none), []⟩

/-- Keep a result under the same conditions. -/
def keep (cache : Option (Results α)) (now : Int64) (key : Fingerprint) (wanted : Bool)
    (out : List (Tensor α)) : Told (Option (Results α)) :=
  match cache with
  | some c =>
    if wanted then (c.put now key out none none).map fun p => some p.2 else ⟨some c, []⟩
  | none => ⟨none, []⟩

variable [Arith α] [Scalar α]

/-- **An operation on checked operands**: a kept result, or that of the first engine that serves
it. -/
def serve (d : Dispatcher α) (key : Op → List (Tensor α) → Fingerprint)
    (cache : Option (Results α)) (now : Int64) (h : Handle) (o : Op) (args : List (Tensor α)) :
    Told (Except DispatchError (List (Tensor α)) × Dispatcher α × Option (Results α)) := do
  let d := d.count fun s => { s with ops := s.ops + 1 }
  let wanted := d.config.opCache && o.isCostly
  let (hit, cache) ← kept? cache now (key o args) wanted
  match hit with
  | some out =>
    return (.ok (out.map fun t => t.onEngine h.engine),
      d.count fun s => { s with cacheHits := s.cacheHits + 1 }, cache)
  | none =>
    let t := (args.head?.map Tensor.dtype).getD .f64
    let (service, s) ← search o t args h.engine.onward { state := d }
    match service with
    | .served e out =>
      let out := out.map fun t => t.onEngine h.engine
      let cache ← keep cache now (key o args) wanted out
      return (.ok out, recordServed s o e, cache)
    | .refused r => return (.error (.operands r), s.state, cache)
    | .unserved =>
      return (.error (.exhausted o s.reason), s.state.logFaults o s.reason none s.failed, cache)

/-- **An operation by name.** Unknown names, bad operands and a handle of an engine that cannot be
used are refused before anything is counted. -/
def op (d : Dispatcher α) (key : Op → List (Tensor α) → Fingerprint)
    (cache : Option (Results α)) (now : Int64) (h : Handle) (name : String)
    (args : List (Tensor α)) :
    Told (Except DispatchError (List (Tensor α)) × Dispatcher α × Option (Results α)) :=
  match Op.ofName? name with
  | none => ⟨(.error (.operands (.unknownOp name)), d, cache), []⟩
  | some o =>
    match o.check args h.engine with
    | .error e => ⟨(.error (.operands e), d, cache), []⟩
    | .ok () =>
      if (d.backend h.engine).available then d.serve key cache now h o args
      else ⟨(.error (.handle h.engine), d, cache), []⟩

end Dispatcher

/-! ## The engines at hand -/

/-- The identity of an operation on operands. -/
def Fingerprint.ofOp (o : Op) (args : List (Tensor Double)) : Fingerprint :=
  .ofStream (args.foldl (fun s t => s ++ Stream.tensor t)
    (Stream.text "tensor-op" ++ Stream.text o.name ++ Stream.word (UInt64.ofNat args.length)))

namespace Backend

variable {α : Type} [Arith α] [Scalar α]

/-- The plain loops, for every operation. -/
def native : Backend α := ⟨"cpu:scalar", true, "", fun o _ => some (Native.run o)⟩

/-- A loaded library, for the operations that it has. -/
def blas (library : String) : Backend α := ⟨"blas:" ++ library, true, "", Blas.run?⟩

/-- The templates, when they are left out. -/
def eigenAbsent : Backend α := ⟨"eigen:none", false, "eigen not built", fun _ _ => none⟩

/-- A stand-in for the templates that runs the plain loops. -/
def eigenStandIn : Backend α := ⟨"eigen:standin", true, "", fun o _ => some (Native.run o)⟩

/-- The engines at hand: a loaded library, and the templates or not. -/
def atHand (library : String) (eigen : Bool) : PerEngine (Backend α) :=
  ⟨blas library, if eigen then eigenStandIn else eigenAbsent, native⟩

end Backend

end MemoFlow
