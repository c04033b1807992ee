import Mathlib.Data.List.Induction
import Mathlib.Data.List.Sort
import Mathlib.Order.Basic

/-!
# Dictionaries that are read in one pass

A dictionary whose keys are in ascending order, as it goes over a wire, and a reader that goes
through it once.  The reader asks for one key after the other.  Asking for a key skips everything
before it, so a key that is asked for out of order is lost, silently.

`read_entries` and `read_after` say that a reader that asks for keys in ascending order finds what
the dictionary has; `after k` is what is left once `k` has been asked for.  The other half is about
writing: `get?_insertAll` says which of several values for one key stays.
-/

set_option autoImplicit false

/-- A dictionary with its keys in ascending order. -/
structure SortedDict (K V : Type*) [LinearOrder K] where
  entries : List (K × V)
  sorted : entries.Pairwise fun e e' => e.1 < e'.1

namespace SortedDict

variable {K V : Type*} [LinearOrder K]

/-- The first value of the key in a list of entries. -/
def find (k : K) (es : List (K × V)) : Option V :=
  (es.find? fun e => decide (e.1 = k)).map Prod.snd

/-- The value of a key. -/
def get? (d : SortedDict K V) (k : K) : Option V := find k d.entries

/-! ## Writing -/

def empty : SortedDict K V := ⟨[], List.Pairwise.nil⟩

/-- Puts an entry in its place, instead of one with the same key if there is one. -/
def insertEntry (k : K) (v : V) : List (K × V) → List (K × V)
  | [] => [(k, v)]
  | e :: es =>
    if k < e.1 then (k, v) :: e :: es
    else if k = e.1 then (k, v) :: es
    else e :: insertEntry k v es

theorem mem_insertEntry {k : K} {v : V} {es : List (K × V)} {x : K × V}
    (h : x ∈ insertEntry k v es) : x = (k, v) ∨ x ∈ es := by
  induction es with
  | nil => exact Or.inl (List.mem_singleton.1 h)
  | cons e es ih =>
    rw [insertEntry] at h
    split_ifs at h
    · exact List.mem_cons.1 h
    · exact (List.mem_cons.1 h).imp_right (List.mem_cons_of_mem e)
    · rcases List.mem_cons.1 h with rfl | h
      · exact Or.inr List.mem_cons_self
      · exact (ih h).imp_right (List.mem_cons_of_mem e)

theorem pairwise_insertEntry (k : K) (v : V) {es : List (K × V)}
    (h : es.Pairwise fun e e' => e.1 < e'.1) :
    (insertEntry k v es).Pairwise fun e e' => e.1 < e'.1 := by
  induction es with
  | nil => exact List.pairwise_singleton _ _
  | cons e es ih =>
    obtain ⟨hlt, hes⟩ := List.pairwise_cons.1 h
    rw [insertEntry]
    split_ifs with hk hk'
    · refine List.pairwise_cons.2 ⟨fun x hx => ?_, h⟩
      rcases List.mem_cons.1 hx with rfl | hx
      · exact hk
      · exact hk.trans (hlt x hx)
    · refine List.pairwise_cons.2 ⟨fun x hx => ?_, hes⟩
      rw [hk']
      exact hlt x hx
    · refine List.pairwise_cons.2 ⟨fun x hx => ?_, ih hes⟩
      rcases mem_insertEntry hx with rfl | hx
      · exact lt_of_le_of_ne (not_lt.1 hk) (Ne.symm hk')
      · exact hlt x hx

/-- `d[k] = v`. -/
def insert (d : SortedDict K V) (k : K) (v : V) : SortedDict K V :=
  ⟨insertEntry k v d.entries, pairwise_insertEntry k v d.sorted⟩

/-- One entry after the other. -/
def insertAll (d : SortedDict K V) (es : List (K × V)) : SortedDict K V :=
  es.foldl (fun d e => d.insert e.1 e.2) d

@[simp] theorem get?_empty (k : K) : (empty : SortedDict K V).get? k = none := rfl

theorem find_cons (k : K) (e : K × V) (es : List (K × V)) :
    find k (e :: es) = if e.1 = k then some e.2 else find k es := by
  rw [find, List.find?_cons]
  by_cases h : e.1 = k <;> simp [h, find]

theorem find_insertEntry (k k' : K) (v : V) (es : List (K × V)) :
    find k' (insertEntry k v es) = if k = k' then some v else find k' es := by
  induction es with
  | nil => rw [insertEntry, find_cons]
  | cons e es ih =>
    rw [insertEntry]
    by_cases hlt : k < e.1
    · rw [if_pos hlt, find_cons]
    by_cases heq : k = e.1
    · rw [if_neg hlt, if_pos heq, find_cons, find_cons, ← heq]
      split <;> rfl
    · rw [if_neg hlt, if_neg heq, find_cons, find_cons, ih]
      by_cases hk : k = k'
      · rw [if_pos hk, if_pos hk, if_neg fun he => heq (hk.trans he.symm)]
      · rw [if_neg hk, if_neg hk]

@[simp] theorem get?_insert (d : SortedDict K V) (k k' : K) (v : V) :
    (d.insert k v).get? k' = if k = k' then some v else d.get? k' :=
  find_insertEntry k k' v d.entries

/-- The values that are written for a key, in order. -/
def valuesOf (k : K) (es : List (K × V)) : List V :=
  es.filterMap fun e => if e.1 = k then some e.2 else none

/-- The last value that is written for a key stays. -/
theorem get?_insertAll (d : SortedDict K V) (es : List (K × V)) (k : K) :
    (d.insertAll es).get? k = (valuesOf k es).getLast?.or (d.get? k) := by
  induction es using List.reverseRecOn with
  | nil => rfl
  | append_singleton es e ih =>
    rw [insertAll, List.foldl_append, List.foldl_cons, List.foldl_nil, get?_insert, valuesOf,
      List.filterMap_append]
    by_cases he : e.1 = k
    · simp [he]
    · simp only [he, if_false, List.filterMap_cons_none, List.filterMap_nil, List.append_nil]
      exact ih

/-- The values for a key when each item of a list writes at most one. -/
theorem valuesOf_flatMap {ι α : Type*} {k : K} {entries : ι → List (K × V)} {pick : ι → Option α}
    {enc : α → V} (h : ∀ i, valuesOf k (entries i) = ((pick i).map enc).toList) (l : List ι) :
    valuesOf k (l.flatMap entries) = (l.filterMap pick).map enc := by
  induction l with
  | nil => rfl
  | cons i l ih =>
    have hsplit : valuesOf k ((i :: l).flatMap entries)
        = valuesOf k (entries i) ++ valuesOf k (l.flatMap entries) := by
      simp only [valuesOf, List.flatMap_cons, List.filterMap_append]
    rw [hsplit, h, ih]
    cases hp : pick i <;> simp [hp]

/-! ## Reading -/

/-- What is left after everything before the key has been skipped. -/
def skipUntil (k : K) (es : List (K × V)) : List (K × V) := es.dropWhile fun e => decide (e.1 < k)

/-- Skips everything before the key, and takes its value if it is there. -/
def read (k : K) (es : List (K × V)) : Option V × List (K × V) :=
  match skipUntil k es with
  | [] => (none, [])
  | e :: rest => if e.1 = k then (some e.2, rest) else (none, e :: rest)

/-- The entries behind a key. -/
def after (d : SortedDict K V) (k : K) : List (K × V) := d.entries.filter fun e => decide (k < e.1)

theorem read_of_sorted (k : K) {es : List (K × V)} (h : es.Pairwise fun e e' => e.1 < e'.1) :
    read k es = (find k es, es.filter fun e => decide (k < e.1)) := by
  induction es with
  | nil => rfl
  | cons e es ih =>
    obtain ⟨hlt, hes⟩ := List.pairwise_cons.1 h
    rcases lt_trichotomy e.1 k with hk | hk | hk
    · have hskip : skipUntil k (e :: es) = skipUntil k es := by simp [skipUntil, hk]
      rw [find_cons, if_neg hk.ne, List.filter_cons_of_neg (by simpa using hk.le), ← ih hes, read,
        hskip, read]
    · have hskip : skipUntil k (e :: es) = e :: es := by simp [skipUntil, hk]
      have hall : es.filter (fun x => decide (k < x.1)) = es :=
        List.filter_eq_self.2 fun x hx => by simpa [← hk] using hlt x hx
      rw [read, hskip, find_cons, if_pos hk, List.filter_cons_of_neg (by simp [hk]), hall]
      simp [hk]
    · have hskip : skipUntil k (e :: es) = e :: es := by simp [skipUntil, hk.le]
      have hall : es.filter (fun x => decide (k < x.1)) = es :=
        List.filter_eq_self.2 fun x hx => by simpa using hk.trans (hlt x hx)
      have hnone : find k es = none := by
        rw [find, Option.map_eq_none_iff, List.find?_eq_none]
        intro x hx
        simpa using (hk.trans (hlt x hx)).ne'
      rw [read, hskip, find_cons, if_neg hk.ne', hnone, List.filter_cons_of_pos (by simpa using hk),
        hall]
      simp [hk.ne']

/-- The first key that is asked for. -/
theorem read_entries (d : SortedDict K V) (k : K) : read k d.entries = (d.get? k, d.after k) :=
  read_of_sorted k d.sorted

/-- A key that is asked for after a smaller one. -/
theorem read_after (d : SortedDict K V) {k₀ k : K} (h : k₀ < k) :
    read k (d.after k₀) = (d.get? k, d.after k) := by
  have hfind : find k (d.after k₀) = d.get? k := by
    rw [find, after, List.find?_filter, get?, find]
    congr 2
    funext e
    by_cases he : e.1 = k <;> simp [he, h]
  have hafter : (d.after k₀).filter (fun e => decide (k < e.1)) = d.after k := by
    rw [after, List.filter_filter, after]
    congr 1
    funext e
    by_cases he : k < e.1
    · simp [he, h.trans he]
    · simp [he]
  have hsorted : (d.after k₀).Pairwise fun e e' => e.1 < e'.1 := d.sorted.filter _
  rw [read_of_sorted k hsorted, hfind, hafter]

/-- A reader that has `rest` left has not passed over anything behind `k`. -/
def Intact (d : SortedDict K V) (k : K) (rest : List (K × V)) : Prop :=
  ∀ k', k < k' → read k' rest = (d.get? k', d.after k')

theorem intact_entries (d : SortedDict K V) (k : K) : d.Intact k d.entries :=
  fun k' _ => d.read_entries k'

theorem intact_after (d : SortedDict K V) (k : K) : d.Intact k (d.after k) :=
  fun _ h => d.read_after h

theorem Intact.mono {d : SortedDict K V} {k k' : K} {rest : List (K × V)} (h : d.Intact k rest)
    (hk : k ≤ k') : d.Intact k' rest :=
  fun _ h' => h _ (hk.trans_lt h')

end SortedDict
