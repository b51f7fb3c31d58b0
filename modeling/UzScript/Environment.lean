import UzScript.Syntax.Basic
import UzScript.Value

/-! # Environments

An environment holds the global variables, one frame of variables for each active call, and the
functions. A variable is looked up from the innermost frame outwards and declared in the innermost
frame; functions are global. -/

set_option autoImplicit false

namespace UzScript

/-- Names bound to values, each name once. -/
structure Bindings (α : Type) where
  entries : List (String × α)

namespace Bindings

variable {α : Type}

def empty : Bindings α := ⟨[]⟩

def get? (b : Bindings α) (name : String) : Option α := b.entries.lookup name

def insert (b : Bindings α) (name : String) (value : α) : Bindings α :=
  ⟨(name, value) :: b.entries.filter (·.1 != name)⟩

/-- Binds names in order, so that the last value of a repeated name stays. -/
def ofList (entries : List (String × α)) : Bindings α :=
  entries.foldl (fun b entry => b.insert entry.1 entry.2) empty

def sorted (b : Bindings α) : List (String × α) :=
  b.entries.mergeSort fun x y => !decide (y.1 < x.1)

@[simp] theorem get?_empty (name : String) : (empty : Bindings α).get? name = none := rfl

theorem lookup_filter_ne (entries : List (String × α)) {name other : String} (h : other ≠ name) :
    (entries.filter (·.1 != name)).lookup other = entries.lookup other := by
  induction entries with
  | nil => rfl
  | cons entry entries ih =>
    obtain ⟨key, value⟩ := entry
    by_cases hkey : key = name
    · subst hkey
      have hother : (other == key) = false := by simp [h]
      simp [List.lookup_cons, hother, ih]
    · by_cases hsame : other = key
      · subst hsame
        simp [hkey]
      · have hother : (other == key) = false := by simp [hsame]
        simp [List.lookup_cons, hother, hkey, ih]

@[simp] theorem get?_insert (b : Bindings α) (name other : String) (value : α) :
    (b.insert name value).get? other = if other = name then some value else b.get? other := by
  by_cases h : other = name
  · simp [get?, insert, h]
  · have hother : (other == name) = false := by simp [h]
    simp [get?, insert, List.lookup_cons, hother, h, lookup_filter_ne b.entries h]

end Bindings

abbrev Frame := Bindings Value

inductive Builtin where
  | sum
deriving DecidableEq

namespace Builtin

def all : List Builtin := [.sum]

def name : Builtin → String
  | .sum => "qoshish"

def arity : Builtin → Nat
  | .sum => 2

/-- The result, if it fits. Arguments beyond the arity play no part. -/
def call : Builtin → List Integer → Option Integer
  | .sum, a :: b :: _ => Integer.ofInt? (a.val + b.val)
  | .sum, _ => none

end Builtin

inductive Callable where
  | builtin (builtin : Builtin)
  | defined (function : FunctionDef)

def Callable.arity : Callable → Nat
  | .builtin b => b.arity
  | .defined function => function.arity

structure Environment where
  globals : Frame
  /-- The frames of the active calls, the innermost first. -/
  calls : List Frame
  functions : Bindings Callable

namespace Environment

def initial : Environment where
  globals := .empty
  calls := []
  functions := .ofList (Builtin.all.map fun b => (b.name, .builtin b))

def frames (env : Environment) : List Frame := env.calls ++ [env.globals]

def depth (env : Environment) : Nat := env.calls.length

def get? (env : Environment) (name : String) : Option Value :=
  env.frames.findSome? (·.get? name)

def declare (env : Environment) (name : String) (value : Value) : Environment :=
  match env.calls with
  | [] => { env with globals := env.globals.insert name value }
  | frame :: outer => { env with calls := frame.insert name value :: outer }

def push (env : Environment) (frame : Frame) : Environment :=
  { env with calls := frame :: env.calls }

/-- Ends the innermost call. With no call active there is nothing to end. -/
def pop (env : Environment) : Option Frame × Environment :=
  match env.calls with
  | [] => (none, env)
  | frame :: outer => (some frame, { env with calls := outer })

def function? (env : Environment) (name : String) : Option Callable := env.functions.get? name

def define (env : Environment) (name : String) (callable : Callable) : Environment :=
  { env with functions := env.functions.insert name callable }

@[simp] theorem depth_push (env : Environment) (frame : Frame) :
    (env.push frame).depth = env.depth + 1 := rfl

@[simp] theorem depth_declare (env : Environment) (name : String) (value : Value) :
    (env.declare name value).depth = env.depth := by
  unfold declare depth
  split
  · rfl
  · next h => simp [h]

@[simp] theorem depth_define (env : Environment) (name : String) (callable : Callable) :
    (env.define name callable).depth = env.depth := rfl

@[simp] theorem frames_push (env : Environment) (frame : Frame) :
    (env.push frame).frames = frame :: env.frames := rfl

@[simp] theorem get?_push (env : Environment) (frame : Frame) (name : String) :
    (env.push frame).get? name = (frame.get? name).or (env.get? name) := by
  cases h : frame.get? name <;> simp [get?, h]

@[simp] theorem get?_declare (env : Environment) (name other : String) (value : Value) :
    (env.declare name value).get? other = if other = name then some value else env.get? other := by
  unfold declare
  split <;> by_cases hname : other = name <;>
    simp_all [get?, frames, List.findSome?_cons, List.findSome?_append]

theorem pop_push (env : Environment) (frame : Frame) : (env.push frame).pop = (some frame, env) :=
  rfl

end Environment

end UzScript
