import Mathlib.Data.String.Basic
import OxenMQ.Basic
import OxenMQ.Lib.SortedDict

/-!
# Control messages on their way to the proxy

The calls of the public interface turn their arguments into a dictionary, which goes through a
socket to the proxy thread and is taken apart there again.  The dictionary (`oxenc::bt_dict`) is
written in ascending order of its keys, and read by a consumer that only goes forward.

The library that writes and reads the bytes is not part of the source.  It is taken to read what
has been written, so that a `Dict` of `Value`s stands for the bytes.  What is left of it here is
what the consumer refuses: a value of the wrong kind, and a negative number where an unsigned one is
expected.  Function objects go over the wire as a pointer to a copy, which is a `Value` of its own
here.
-/

set_option autoImplicit false

namespace OxenMQ

namespace Control

/-- A value in a dictionary. -/
inductive Value where
  | int (n : ℤ)
  | str (s : String)
  | list (parts : List String)
  /-- A pointer to a function object. -/
  | ptr (f : Callback)
  /-- A pointer to a function object that the proxy tests for being empty. -/
  | optPtr (f : Option Callback)
  deriving DecidableEq, Repr

abbrev Dict := SortedDict String Value

def Value.ofBool (b : Bool) : Value := .int (if b then 1 else 0)

/-! ## The consumer -/

/-- The consumer of a dictionary: a computation on what is left of it. -/
abbrev Consumer (α : Type) := StateT (List (String × Value)) (Except Abort) α

def badValue {α : Type} : Except Abort α := .error (.exception "bt_deserialize_invalid")

/-- `consume_integer` with a signed type. -/
def consumeInteger : Value → Except Abort ℤ
  | .int n => .ok n
  | _ => badValue

/-- `consume_integer` with an unsigned type. -/
def consumeUnsigned : Value → Except Abort ℤ
  | .int n => if n < 0 then badValue else .ok n
  | _ => badValue

def consumeBool : Value → Except Abort Bool
  | .int n => if n = 0 then .ok false else if n = 1 then .ok true else badValue
  | _ => badValue

theorem consumeBool_ofBool (b : Bool) : consumeBool (.ofBool b) = .ok b := by
  cases b <;> rfl

def consumeString : Value → Except Abort String
  | .str s => .ok s
  | _ => badValue

def consumeList : Value → Except Abort (List String)
  | .list parts => .ok parts
  | _ => badValue

/-- `deserialize_object` of the pointer that is consumed. -/
def consumeFunction : Value → Except Abort Callback
  | .ptr f => .ok f
  | _ => badValue

def consumeOptFunction : Value → Except Abort (Option Callback)
  | .optPtr f => .ok f
  | _ => badValue

namespace Consumer

/-- `skip_until`, and the value if the key is there. -/
def find (k : String) : Consumer (Option Value) := fun rest => .ok (SortedDict.read k rest)

/-- `if (data.skip_until(k)) x = data.consume…()`, for a variable that starts with `initial`. -/
def readOr {α : Type} (k : String) (consume : Value → Except Abort α) (initial : α) :
    Consumer α := do
  match ← find k with
  | some v => consume v
  | none => return initial

/-- A key that has to be there. -/
def readRequired {α : Type} (k : String) (consume : Value → Except Abort α) (what : String) :
    Consumer α := do
  match ← find k with
  | some v => consume v
  | none => throw (.exception what)

end Consumer

/-! ## What a consumer gets

A consumer is followed by what it gets out of a dictionary, and by how far it has gone. -/

namespace Consumer

variable {α β : Type} {d : Dict} {k k₀ k₁ : String} {consume : Value → Except Abort α}

/-- A consumer that has not passed `k₀` gets `x` out of the dictionary, and has not passed `k`
then. -/
def Reads (m : Consumer α) (d : Dict) (k₀ k : String) (x : Except Abort α) : Prop :=
  ∀ rest, d.Intact k₀ rest → ∃ rest', d.Intact k rest' ∧ m rest = x.map fun a => (a, rest')

/-- What a consumer gets out of a whole dictionary. -/
def get (m : Consumer α) (d : Dict) : Except Abort α := (m d.entries).map Prod.fst

theorem Reads.get {m : Consumer α} {x : Except Abort α} (h : m.Reads d k₀ k x) : m.get d = x := by
  obtain ⟨rest', -, hm⟩ := h d.entries (d.intact_entries k₀)
  rw [Consumer.get, hm]
  cases x <;> rfl

theorem bind_apply (m : Consumer α) (f : α → Consumer β) (rest : List (String × Value)) :
    (m >>= f) rest = m rest >>= fun p => f p.1 p.2 := rfl

theorem lift_apply (x : Except Abort α) (rest : List (String × Value)) :
    (liftM x : Consumer α) rest = x.map fun a => (a, rest) := by
  cases x <;> rfl

theorem Reads.bind {m : Consumer α} {f : α → Consumer β} {a : α} {y : Except Abort β}
    (h : m.Reads d k₀ k (.ok a)) (hf : (f a).Reads d k k₁ y) :
    Consumer.Reads (m >>= f) d k₀ k₁ y := by
  intro rest hrest
  obtain ⟨rest', hrest', hm⟩ := h rest hrest
  obtain ⟨rest'', hrest'', hfm⟩ := hf rest' hrest'
  exact ⟨rest'', hrest'', by rw [bind_apply, hm]; exact hfm⟩

theorem Reads.bind_error {m : Consumer α} {f : α → Consumer β} {e : Abort}
    (h : m.Reads d k₀ k (.error e)) : Consumer.Reads (m >>= f) d k₀ k₁ (.error e) := by
  intro rest hrest
  obtain ⟨rest', -, hm⟩ := h rest hrest
  exact ⟨d.after k₁, d.intact_after k₁, by rw [bind_apply, hm]; rfl⟩

theorem reads_pure (h : k₀ ≤ k) (a : α) : Consumer.Reads (pure a) d k₀ k (.ok a) :=
  fun rest hrest => ⟨rest, hrest.mono h, rfl⟩

theorem find_apply {rest : List (String × Value)} (h : k₀ < k) (hrest : d.Intact k₀ rest) :
    find k rest = .ok (d.get? k, d.after k) := by
  rw [find, hrest k h]

theorem reads_readOr (h : k₀ < k) (initial : α) :
    (readOr k consume initial).Reads d k₀ k ((d.get? k).elim (.ok initial) consume) := by
  intro rest hrest
  refine ⟨d.after k, d.intact_after k, ?_⟩
  rw [readOr, bind_apply, find_apply h hrest]
  cases d.get? k with
  | none => rfl
  | some v => exact lift_apply (consume v) (d.after k)

variable (consume) in
theorem reads_readOr_some {v : Value} {a : α} (h : k₀ < k) (hget : d.get? k = some v)
    (hdec : consume v = .ok a) (initial : α) :
    (readOr k consume initial).Reads d k₀ k (.ok a) := by
  have hread := @reads_readOr α d k k₀ consume h initial
  rwa [hget, Option.elim_some, hdec] at hread

theorem reads_readOr_none (h : k₀ < k) (hget : d.get? k = none) (initial : α) :
    (readOr k consume initial).Reads d k₀ k (.ok initial) := by
  have hread := @reads_readOr α d k k₀ consume h initial
  rwa [hget] at hread

/-- A key that several writers may have written: the last one counts, or else the initial value. -/
theorem reads_readOr_last {enc : α → Value} {l : List α} (h : k₀ < k)
    (hget : d.get? k = l.getLast?.map enc) (hdec : ∀ a ∈ l, consume (enc a) = .ok a)
    (initial : α) : (readOr k consume initial).Reads d k₀ k (.ok (l.getLast?.getD initial)) := by
  cases hl : l.getLast? with
  | none =>
    rw [hl] at hget
    exact reads_readOr_none h hget initial
  | some a =>
    rw [hl] at hget
    exact reads_readOr_some consume h hget (hdec a (List.mem_of_getLast? hl)) initial

variable (consume) in
theorem reads_readRequired {v : Value} {a : α} (h : k₀ < k) (hget : d.get? k = some v)
    (hdec : consume v = .ok a) (what : String) :
    (readRequired k consume what).Reads d k₀ k (.ok a) := by
  intro rest hrest
  refine ⟨d.after k, d.intact_after k, ?_⟩
  rw [readRequired, bind_apply, find_apply h hrest, hget]
  rw [← hdec]
  exact lift_apply (consume v) (d.after k)

end Consumer

end Control

end OxenMQ
