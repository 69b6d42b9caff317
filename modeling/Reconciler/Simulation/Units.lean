import Reconciler.Resource.Basic

/-!
# Resources that act by script

A `ScriptedUnit` is one managed thing with a text as its state. Every call to it is recorded; a call
that the script lets fail changes nothing. `Blueprint` describes resources built from such units:
CRUD resources, basic ones, chains and rings of wrappers, and decorated ones; `Blueprint.build`
registers the basic resources and yields the resource.
-/

namespace Reconciler.Simulation

/-- A failure in the script: the `nth` call of an operation, or every one, fails. -/
structure Fault where
  /-- The operation that fails. -/
  operation : Operation
  /-- Which of its calls, from 1. -/
  nth : Option Nat
  /-- The error. -/
  error : Error

/-- One managed thing. -/
structure ScriptedUnit where
  /-- Name of its resource. -/
  name : String
  /-- The failures in its script. -/
  faults : List Fault := []
  /-- Its state. -/
  state : String := ""
  /-- Template of the desired state. -/
  desired : String := ""
  /-- Templates of the changes of an update pass. -/
  updateTemplate : Patch String := {}
  /-- Templates of the changes of a delete pass. -/
  deleteTemplate : Patch String := {}
  /-- The operations called so far. -/
  called : List Operation := []

/-- A call that was made. -/
structure CallRecord where
  /-- Name of the resource. -/
  resource : String
  /-- What was called. -/
  operation : Operation
  /-- Key of the object. -/
  object : String
  /-- What the call was handed. -/
  payloads : List String
deriving DecidableEq, Repr

/-- The units by number, and the calls made, newest first. -/
structure Units where
  /-- The units. -/
  units : Array ScriptedUnit := #[]
  /-- The calls. -/
  records : List CallRecord := []

/-- Questions to the units. -/
inductive UnitRequest where
  /-- Run a whole pass for an object. -/
  | ensure (unit : Nat) (pass : Pass) (object : String)
  /-- Answer a call for an object. -/
  | call (unit : Nat) (c : Call String String) (object : String)

/-- The units as something that can be asked. -/
def unitInterface : Interface where
  Request := UnitRequest
  Reply
    | .ensure .. => Except Error Unit
    | .call _ c _ => Except Error c.Reply

namespace ScriptedUnit

/-- The failure that the script has for the next call of an operation. -/
def fault? (u : ScriptedUnit) (op : Operation) : Option Error :=
  let n := u.called.count op + 1
  (u.faults.find? fun f => f.operation == op && (f.nth.all (· == n))).map (·.error)

/-- A template with its placeholders filled in. -/
def fill (object current desired template : String) : String :=
  ((template.replace "$o" object).replace "$c" current).replace "$d" desired

/-- What a call answers, and the unit afterwards. -/
def respond (u : ScriptedUnit) (object : String) :
    (c : Call String String) → c.Reply × ScriptedUnit
  | .getCurrent => (u.state, u)
  | .getDesired => (u.desired.replace "$o" object, u)
  | .newPatch .update current desired => (u.updateTemplate.map (fill object current desired), u)
  | .newPatch .delete current desired => (u.deleteTemplate.map (fill object current desired), u)
  | .apply .delete _ => ((), { u with state := "" })
  | .apply _ change => ((), { u with state := change })

end ScriptedUnit

/-- What a call hands over. -/
def callPayloads : Call String String → List String
  | .getCurrent | .getDesired => []
  | .newPatch _ current desired => [current, desired]
  | .apply _ change => [change]

namespace Units

/-- Record a call, and tell whether the script lets it fail. -/
def begin (s : Units) (n : Nat) (op : Operation) (object : String) (payloads : List String) :
    Option Error × Units :=
  match s.units[n]? with
  | none => (none, s)
  | some u =>
    (u.fault? op,
      { units := s.units.modify n fun u => { u with called := op :: u.called }
        records := ⟨u.name, op, object, payloads⟩ :: s.records })

/-- Answer a question. -/
def answer : (q : UnitRequest) → Units → unitInterface.Reply q × Units
  | .ensure n pass object, s =>
    let r := s.begin n pass.operation object []
    (match r.1 with
      | some e => .error e
      | none => .ok (),
      r.2)
  | .call n c object, s =>
    let r := s.begin n c.operation object (callPayloads c)
    match r.1 with
    | some e => (.error e, r.2)
    | none =>
      let u := (r.2.units[n]?).getD { name := "" }
      let out := u.respond object c
      (.ok out.1, { r.2 with units := r.2.units.modify n fun _ => out.2 })

/-- Add a unit. -/
def add (s : Units) (u : ScriptedUnit) : Units := { s with units := s.units.push u }

end Units

/-- A payload of a call: a text, which the scripted resources own, or a number, which they do
not. -/
inductive Payload where
  /-- A text. -/
  | text (s : String)
  /-- A number. -/
  | number (n : Int)
deriving DecidableEq, Repr

/-- Texts as payloads. -/
def Payload.textEmbedding (typeName : String) : Embedding Payload String where
  typeName := typeName
  inject := .text
  project?
    | .text s => some s
    | .number _ => none
  project?_inject _ := rfl

/-- How a decorator is applied. -/
inductive Mode where
  /-- Call by call if possible, else as a whole. -/
  | wrapOne
  /-- Call by call. -/
  | splice
  /-- As a whole. -/
  | resource
deriving DecidableEq, Repr

/-- A description of a resource. -/
inductive Blueprint where
  /-- A CRUD resource over one unit. -/
  | crud (unit : ScriptedUnit)
  /-- A basic resource over one unit. -/
  | basic (unit : ScriptedUnit)
  /-- A chain of basic resources around another resource, each with a unit of its own. -/
  | link (unit : ScriptedUnit) (depth : Nat) (inner : Blueprint)
  /-- A ring of basic resources, each with a unit of its own. -/
  | cycle (unit : ScriptedUnit) (length : Nat)
  /-- A decorated resource. -/
  | decorated (decorator : Decorator) (mode : Mode) (inner : Blueprint)

/-- A resource built from units. -/
abbrev UnitResource (K : Type) := Resource unitInterface K Payload Nat

/-- The basic resources, units and instruments registered so far. -/
structure Shop (K : Type) where
  /-- The basic resources by index. -/
  basics : Array (BasicResource unitInterface K Payload Nat) := #[]
  /-- The units. -/
  units : Units := {}
  /-- The instruments, oldest first. -/
  instruments : List Registration := []

namespace Shop

variable {K : Type}

/-- The registry of the basic resources; an index that was never given out is a resource that does
nothing. -/
def registry (s : Shop K) : Registry unitInterface K Payload Nat where
  lookup i := (s.basics[i]?).getD { name := "", ensure := fun _ _ => .done (.ok ()) }

/-- Register a basic resource with a unit of its own. -/
def addBasic (s : Shop K) (key : K → String) (u : ScriptedUnit)
    (after : Pass → K → Program unitInterface (Except Error Unit))
    (wrapped : Option (UnitResource K)) : UnitResource K × Shop K :=
  let n := s.units.units.size
  (.basic s.basics.size,
    { s with
      basics := s.basics.push
        { name := u.name
          ensure := fun pass k =>
            (Program.request (I := unitInterface) (.ensure n pass (key k))).andThen fun _ =>
              after pass k
          wrapped := wrapped }
      units := s.units.add u })

/-- Stand a chain of basic resources around a resource. -/
def addChain (key : K → String) (u : ScriptedUnit) :
    Nat → UnitResource K × Shop K → UnitResource K × Shop K
  | 0, r => r
  | depth + 1, (inner, s) =>
    addChain key u depth (s.addBasic key u (fun pass k => s.registry.ensure pass inner k) inner)

/-- Register a ring of basic resources and yield the first. -/
def addRing (s : Shop K) (key : K → String) (u : ScriptedUnit) (length : Nat) :
    UnitResource K × Shop K :=
  let first := s.basics.size
  let nothing : Pass → K → Program unitInterface (Except Error Unit) :=
    fun _ _ => .done (.ok ())
  (.basic first,
    (List.range length).foldl
      (fun s i => (s.addBasic key u nothing (some (.basic (first + (i + 1) % length)))).2) s)

/-- A decorator was made. -/
def addDecorator (s : Shop K) (d : Decorator) : Shop K :=
  { s with instruments := s.instruments ++ d.registrations }

/-- Apply a decorator. -/
def decorate (s : Shop K) (d : Decorator) (mode : Mode) (r : UnitResource K) :
    Except Error (UnitResource K) :=
  match mode with
  | .wrapOne => s.registry.wrapOne d r
  | .splice => s.registry.splice d r
  | .resource => .ok (.layer d r)

end Shop

/-- Build a resource; `typeName` is what texts are called in messages. -/
def Blueprint.build {K : Type} (key : K → String) (typeName : String) :
    Blueprint → Shop K → Except Error (UnitResource K × Shop K)
  | .crud u, s => do
    let n := s.units.units.size
    let ops : Ops unitInterface K String String :=
      { name := u.name
        perform := fun c k => Program.request (I := unitInterface) (.call n c (key k)) }
    let text := Payload.textEmbedding typeName
    let crud ← Crud.ofOps (ops.erase text text)
    .ok (.crud crud, { s with units := s.units.add u })
  | .basic u, s => .ok (s.addBasic key u (fun _ _ => .done (.ok ())) none)
  | .link u depth inner, s => do
    let r ← inner.build key typeName s
    .ok (Shop.addChain key u depth r)
  | .cycle u length, s => .ok (s.addRing key u length)
  | .decorated d mode inner, s => do
    let r ← inner.build key typeName s
    let s := r.2.addDecorator d
    let decorated ← s.decorate d mode r.1
    .ok (decorated, s)

end Reconciler.Simulation
