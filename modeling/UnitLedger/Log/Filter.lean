import UnitLedger.Log.Event
import UnitLedger.Text.Blank

/-!
  UnitLedger.Log.Filter — which events are written to the log.

  A filter is a list of directives, separated by commas. A directive is a level, or an area, or an
  area and a level joined by an equals sign; in brackets it may also name a span and a field. Of the
  directives that fit an event the most specific one decides: the one with the longest area, and
  among these one that names a field. An event that no directive fits is not written.
-/

namespace UnitLedger.Log

/-- How much is let through: nothing at 0, and the events up to a level at that level's detail. -/
abbrev Threshold := Nat

structure FieldPattern where
  name : String
  /-- The directive also asks for a value. -/
  hasValue : Bool
  deriving DecidableEq, Repr

structure Directive where
  threshold : Threshold
  /-- The beginning of the areas that the directive is about. -/
  area : Option String := none
  span : Option String := none
  field : Option FieldPattern := none
  deriving DecidableEq, Repr

/-! ## Reading -/

inductive DirectiveFault where
  | malformed
  | unknownLevel
  deriving DecidableEq, Repr

def DirectiveFault.message : DirectiveFault → String
  | malformed => "invalid filter directive"
  | unknownLevel => "error parsing level filter: expected one of \"off\", \"error\", \"warn\", "
      ++ "\"info\", \"debug\", \"trace\", or a number 0-5"

def Threshold.everything : Threshold := Level.trace.detail

/-- The levels from `off` to `trace` are known by name, in any case, and by number. -/
def Threshold.ofText? (s : String) : Option Threshold :=
  let digits := match s.toList with
    | '+' :: rest => rest
    | cs => cs
  if !digits.isEmpty && digits.all Char.isDigit then
    let n := digits.foldl (fun n d => 10 * n + (d.toNat - 48)) 0
    if n ≤ everything then some n else none
  else ["off", "error", "warn", "info", "debug", "trace"].idxOf? (s.map Char.toLower)

namespace Directive

/-- The level behind the equals sign; without one everything is let through. -/
def readLevel (d : Directive) (rest : List Char) : Except DirectiveFault Directive :=
  if rest.isEmpty then .ok d
  else
    match Threshold.ofText? (String.ofList rest) with
    | some t => .ok { d with threshold := t }
    | none => .error .unknownLevel

/-- What follows the closing bracket. -/
def readTail (d : Directive) : List Char → Except DirectiveFault Directive
  | [] => .ok d
  | '=' :: rest => d.readLevel rest
  | _ => .error .malformed

/-- What follows the opening bracket. -/
def readSpan (d : Directive) (cs : List Char) : Except DirectiveFault Directive :=
  let name := cs.takeWhile fun c => c != ']' && c != '\x7b'
  match cs.drop name.length with
  | ']' :: rest => { d with span := some (String.ofList name) }.readTail rest
  | '\x7b' :: rest =>
    let field := rest.takeWhile (· != '\x7d')
    match rest.drop field.length with
    | '\x7d' :: ']' :: tail =>
      if field.isEmpty then .error .malformed
      else
        let pattern : FieldPattern :=
          { name := String.ofList (field.takeWhile (· != '=')), hasValue := field.contains '=' }
        { d with
          span := if name.isEmpty then none else some (String.ofList name)
          field := some pattern }.readTail tail
    | _ => .error .malformed
  | _ => .error .malformed

/-- A directive may start with a letter or a digit of any script, or with one of these. -/
def startsArea (c : Char) : Bool :=
  c == '-' || c == ':' || c == '_' || c.isAlphanum || 128 ≤ c.toNat

def read (s : String) : Except DirectiveFault Directive :=
  let d : Directive := { threshold := Threshold.everything }
  match Text.trim s.toList with
  | [] => .error .malformed
  | '[' :: rest => d.readSpan rest
  | c :: cs =>
    if !startsArea c then .error .malformed
    else
      let head := (c :: cs).takeWhile fun c => c != '=' && c != '['
      let area := String.ofList head
      match (c :: cs).drop head.length with
      | '=' :: rest => { d with area := some area }.readLevel rest
      | '[' :: rest => { d with area := some area }.readSpan rest
      | _ =>
        match Threshold.ofText? area with
        | some t => .ok { d with threshold := t }
        | none => .ok { d with area := some area }

/-- The directive can be judged without knowing spans and values. -/
def isStatic (d : Directive) : Bool := d.span.isNone && !d.field.any (·.hasValue)

def fits (d : Directive) (e : Event) : Bool :=
  d.isStatic && d.area.all (e.area.startsWith ·)
    && d.field.all fun f => f.name == "message" || e.fields.any (·.1 == f.name)

/-- The second directive is more specific than the first, or as specific. -/
def yieldsTo (a b : Directive) : Bool :=
  let length (d : Directive) : Nat := d.area.elim 0 (·.utf8ByteSize + 1)
  let names (d : Directive) : Nat := if d.field.isSome then 1 else 0
  if length a != length b then length a < length b
  else if names a != names b then names a < names b
  else (a.field.elim "" (·.name)) ≤ (b.field.elim "" (·.name))

end Directive

/-! ## Filters -/

structure Filter where
  directives : List Directive
  deriving DecidableEq, Repr

namespace Filter

/-- The directive that decides about an event. -/
def decisive? (f : Filter) (e : Event) : Option Directive :=
  (f.directives.filter (·.fits e)).foldl
    (fun best d => match best with
      | none => some d
      | some b => if b.yieldsTo d then some d else some b)
    none

def admits (f : Filter) (e : Event) : Bool :=
  (f.decisive? e).any fun d => e.level.detail ≤ d.threshold

/-- The parts of a text between its commas, empty ones left out. -/
def parts (s : String) : List String := (s.splitOn ",").filter (!·.isEmpty)

/-- A filter all of whose directives can be read. -/
def ofText? (s : String) : Option Filter :=
  ((parts s).mapM fun p => (Directive.read p).toOption).map Filter.mk

/-- The directives of a text that can be read, and a complaint for each of the others. -/
def ofParts (s : String) : Filter × List String :=
  let read := (parts s).map fun p => (p, Directive.read p)
  (⟨read.filterMap fun r => r.2.toOption⟩,
    read.filterMap fun r => match r.2 with
      | .ok _ => none
      | .error e => some ("ignoring `" ++ r.1 ++ "`: " ++ e.message))

/-- The filter of the program: the one given from outside if it can be read, else the configured
level, where the messages of the database client stay at warnings. -/
def choose (fromOutside : Option String) (level : String) : Filter × List String :=
  match fromOutside.bind ofText? with
  | some f => (f, [])
  | none => ofParts (level ++ ",sqlx=warn")

end Filter

end UnitLedger.Log
