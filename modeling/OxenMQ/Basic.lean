import Mathlib.Algebra.Group.Int.Defs
import Mathlib.Data.Int.Basic
import Mathlib.Data.String.Basic
import OxenMQ.Lib.Fallible
import OxenMQ.Lib.Lists

/-!
# Connection ids, authentication levels and handler results

The vocabulary shared by the two halves of the proxy thread, the connection tables
(`OxenMQ.Connections.Defs`) and the worker pool (`OxenMQ.Workers.Defs`).

Byte strings of the source (`std::string`, `zmq::message_t`) are `String`s: nothing here depends
on more than their length and their equality.  A function object (`std::function`) is a
`Callback`, an opaque handle, because what the library does with a function object is to store it,
to move it around and in the end to call it.

`ConnectionID.eq` is the `operator==` of the source and not equality: two service node ids are
the same when their pubkeys are, two other ids when their number and their route are.  It is an
equivalence relation (`ConnectionID.eq_iff`), which is what the `peers` multimap needs.
-/

set_option autoImplicit false

namespace OxenMQ

/-- A function object, by its identity. -/
abbrev Callback := ℕ

/-- How a handler of the proxy thread can fail to return: an exception escapes from it, it loops for
ever, or it waits for something that only the proxy thread itself could do. -/
inductive Abort where
  | exception (what : String)
  | endless
  | blocked
  deriving DecidableEq, Repr

/-- An exception escapes. -/
def Throws {α : Type} (x : Except Abort α) : Prop := ∃ what, x = .error (.exception what)

theorem not_throws_ok {α : Type} (a : α) : ¬ Throws (.ok a) := fun ⟨_, h⟩ => nomatch h

theorem throws_bind {α β : Type} {x : Except Abort α} {f : α → Except Abort β} :
    Throws (x >>= f) ↔ Throws x ∨ ∃ a, x = .ok a ∧ Throws (f a) := by
  cases x with
  | error e =>
    refine ⟨fun ⟨what, h⟩ => Or.inl ⟨what, congrArg _ (Except.error.inj h)⟩, ?_⟩
    rintro (⟨what, h⟩ | ⟨_, h, _⟩)
    · exact ⟨what, congrArg _ (Except.error.inj h)⟩
    · cases h
  | ok a =>
    rw [Except.ok_bind]
    refine ⟨fun h => Or.inr ⟨a, rfl, h⟩, ?_⟩
    rintro (h | ⟨_, h, hf⟩)
    · exact absurd h (not_throws_ok a)
    · cases h
      exact hf

/-- A handler whose result is only put in its place. -/
theorem throws_bind_pure {α β : Type} {x : Except Abort α} {f : α → β} :
    Throws (x >>= fun a => pure (f a)) ↔ Throws x := by
  rw [throws_bind]
  exact ⟨fun h => h.resolve_right fun ⟨a, _, hf⟩ => not_throws_ok _ hf, Or.inl⟩

/-! ## Time

`steady_clock` counts nanoseconds in 64 bits, and so does the source wherever it adds to a point in
time or compares with one.  Durations are given in milliseconds, and are multiplied by a million on
the way.  Signed overflow is undefined; here the number wraps around, as the machine's does. -/

/-- A number of milliseconds as `std::chrono::nanoseconds`. -/
def nanoseconds (ms : ℤ) : ℤ := (ms * 1000000).bmod (2 ^ 64)

/-- The point in time `ms` milliseconds after `now`. -/
def timeAfter (now ms : ℤ) : ℤ := (now + ms * 1000000).bmod (2 ^ 64)

/-- Is a number of nanoseconds one of 64 bits? -/
def fitsInt64 (n : ℤ) : Prop := -2 ^ 63 ≤ n ∧ n < 2 ^ 63

theorem bmod_of_fitsInt64 {n : ℤ} (h : fitsInt64 n) : n.bmod (2 ^ 64) = n := by
  obtain ⟨hlow, hhigh⟩ := h
  exact Int.bmod_eq_of_le (by omega) (by omega)

theorem nanoseconds_of_fits {ms : ℤ} (h : fitsInt64 (ms * 1000000)) :
    nanoseconds ms = ms * 1000000 := bmod_of_fitsInt64 h

theorem timeAfter_of_fits {now ms : ℤ} (h : fitsInt64 (now + ms * 1000000)) :
    timeAfter now ms = now + ms * 1000000 := bmod_of_fitsInt64 h

theorem fitsInt64_of_timeAfter {now ms : ℤ} (h : timeAfter now ms = now + ms * 1000000) :
    fitsInt64 (now + ms * 1000000) := by
  have hlow := Int.le_bmod (x := now + ms * 1000000) (m := 2 ^ 64) (by decide)
  have hhigh := Int.bmod_lt (x := now + ms * 1000000) (m := 2 ^ 64) (by decide)
  rw [timeAfter] at h
  constructor <;> omega

/-! ## Authentication levels -/

/-- Authentication levels for command categories and connections. -/
inductive AuthLevel where
  | denied
  | none
  | basic
  | admin
  deriving DecidableEq, Repr

/-- The value of the enumerator, which is what the source compares. -/
def AuthLevel.toNat : AuthLevel → ℕ
  | .denied => 0
  | .none => 1
  | .basic => 2
  | .admin => 3

/-- `auth_from_string`. -/
def authFromString (a : String) : AuthLevel :=
  if a = "none" then .none
  else if a = "basic" then .basic
  else if a = "admin" then .admin
  else .denied

/-- The access level for a command category. -/
structure Access where
  /-- Minimum access level required. -/
  auth : AuthLevel := .none
  /-- Only remote service nodes may call the commands. -/
  remoteSn : Bool := false
  /-- The local node must be a service node. -/
  localSn : Bool := false
  deriving DecidableEq, Repr

/-! ## Connection ids -/

/-- The `id` of every service node connection. -/
def snId : ℤ := -1

structure ConnectionID where
  id : ℤ := 0
  pk : String := ""
  route : String := ""
  deriving DecidableEq, Repr

namespace ConnectionID

/-- Does this id stand for a service node? -/
def sn (c : ConnectionID) : Bool := c.id == snId

/-- The constructor from a service node pubkey, which refuses a key of the wrong length. -/
def ofPubkey (pk : String) : Except Abort ConnectionID :=
  if pk.length ≠ 32 then .error (.exception "Invalid pubkey: expected 32 bytes")
  else .ok ⟨snId, pk, ""⟩

/-- The constructor from a number, for a connection that is not to a service node. -/
def ofId (id : ℤ) : ConnectionID := { id := id }

/-- `operator==`. -/
def eq (a b : ConnectionID) : Bool :=
  if a.sn && b.sn then a.pk == b.pk else a.id == b.id && a.route == b.route

/-- What `eq` compares. -/
def key (c : ConnectionID) : String ⊕ (ℤ × String) :=
  if c.sn then .inl c.pk else .inr (c.id, c.route)

theorem eq_iff {a b : ConnectionID} : a.eq b = true ↔ a.key = b.key := by
  unfold eq key sn
  by_cases ha : a.id = snId <;> by_cases hb : b.id = snId
  · simp [ha, hb]
  · simp [ha, hb, Ne.symm hb]
  · simp [ha, hb]
  · simp [ha, hb]

theorem eq_symm {a b : ConnectionID} (h : a.eq b = true) : b.eq a = true :=
  eq_iff.2 (eq_iff.1 h).symm

/-- Against a service node's id, the pubkeys are compared. -/
theorem eq_sn_iff {a b : ConnectionID} (hb : b.sn = true) :
    a.eq b = true ↔ a.sn = true ∧ a.pk = b.pk := by
  rw [eq_iff, key, key, if_pos hb]
  cases ha : a.sn <;> simp

/-- Against any other id, the numbers and the routes are. -/
theorem eq_not_sn_iff {a b : ConnectionID} (hb : b.sn = false) :
    a.eq b = true ↔ a.id = b.id ∧ a.route = b.route := by
  rw [eq, hb, Bool.and_false, if_neg Bool.false_ne_true, Bool.and_eq_true, beq_iff_eq, beq_iff_eq]

theorem sn_ofId_of_pos {id : ℤ} (h : 0 < id) : (ofId id).sn = false := by
  have hne : id ≠ snId := by
    rw [snId]
    omega
  exact beq_eq_false_iff_ne.2 hne

theorem id_eq_of_eq {a b : ConnectionID} (h : a.eq b = true) : a.id = b.id := by
  cases hb : b.sn with
  | true =>
    obtain ⟨ha, -⟩ := (eq_sn_iff hb).1 h
    rw [sn, beq_iff_eq] at ha hb
    rw [ha, hb]
  | false => exact ((eq_not_sn_iff hb).1 h).1

theorem ofPubkey_ok {pk : String} {c : ConnectionID} :
    ofPubkey pk = .ok c ↔ pk.length = 32 ∧ c = ⟨snId, pk, ""⟩ := by
  unfold ofPubkey
  split
  · simp_all
  · simp_all [eq_comm]

theorem throws_ofPubkey {pk : String} : Throws (ofPubkey pk) ↔ pk.length ≠ 32 := by
  unfold ofPubkey
  split
  · exact iff_of_true ⟨_, rfl⟩ ‹_›
  · exact iff_of_false (not_throws_ok _) ‹_›

end ConnectionID

end OxenMQ
