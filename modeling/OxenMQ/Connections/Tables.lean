import Mathlib.Logic.Function.Basic
import Mathlib.Logic.Relation
import OxenMQ.Connections.Defs

/-!
# What the connection tables are for

The three tables of the proxy thread answer one question: which socket reaches which remote?  This
file says what an answer is, without the handlers.  A `Tables` is what is left of the state of the
proxy: a list of references from a remote's id to a socket number, the sockets by number, and the
index of the sockets opened to service nodes.  `Tables.Move` lists the eight things that can
properly be done to it, and `Tables.Ok` is what a reader of the tables relies on:

* every reference leads to an open socket of the kind it says (`Tables.RefOk`);
* every outgoing socket has exactly one reference;
* the index knows exactly the sockets opened to a service node.

`Tables.Ok.move` shows that every move keeps `Tables.Ok`.  The interesting move is
`Tables.Move.drop`: any set of references may be dropped, in any way, as long as the sockets of
the outgoing ones among them are closed with them.  That no other reference is left hanging then
follows from the second point.

`OxenMQ.Connections.Consistency` shows that the handlers only make such moves.
-/

set_option autoImplicit false

namespace OxenMQ

/-- A reference from a remote's id to the socket that reaches it. -/
structure Ref where
  key : ConnectionID
  connId : ℤ
  outgoing : Bool
  deriving DecidableEq, Repr

/-- The connection tables. -/
structure Tables where
  refs : List Ref
  sockets : ℤ → Option Socket
  /-- The index of the outgoing sockets to service nodes. -/
  snConns : ℤ → Option ConnectionID
  /-- The next number to give to a socket. -/
  next : ℤ
  /-- Numbers that have been given out and not been used yet. -/
  allocated : List ℤ
  /-- The sockets whose remote has not answered yet, or had not when they were closed. -/
  pending : List ℤ

namespace Tables

/-- The number of references to an outgoing socket. -/
def refCount (refs : List Ref) (id : ℤ) : ℕ := refs.countP fun r => r.outgoing && r.connId == id

/-- The sockets that go when the references `refs` do. -/
def Closes (refs : List Ref) (id : ℤ) : Prop := ∃ r ∈ refs, r.outgoing = true ∧ r.connId = id

/-- A reference that leads where it says. -/
inductive RefOk (t : Tables) : Ref → Prop
  /-- A service node that connected to us. -/
  | incoming {k : ConnectionID} {id : ℤ} (hk : k.sn = true) (hs : t.sockets id = some .router) :
    RefOk t ⟨k, id, false⟩
  /-- A service node we connected to. -/
  | toSn {k : ConnectionID} {id : ℤ} (hk : k.sn = true) (hs : t.sockets id = some (.dealer true))
    (hi : t.snConns id = some k) : RefOk t ⟨k, id, true⟩
  /-- Any other remote we connected to, which is known by the number of its socket. -/
  | remote {k : ConnectionID} {id : ℤ} (hk : k.sn = false) (hid : k.id = id) (hr : k.route = "")
    (hs : t.sockets id = some (.dealer false)) : RefOk t ⟨k, id, true⟩

/-- The numbers of sockets are used once. -/
structure Numbered (t : Tables) : Prop where
  next_pos : 0 < t.next
  socket_lt : ∀ id s, t.sockets id = some s → id < t.next ∧ id ∉ t.allocated
  allocated_nodup : t.allocated.Nodup
  allocated_range : ∀ id ∈ t.allocated, 0 < id ∧ id < t.next
  pending_range : ∀ id ∈ t.pending, 0 < id ∧ id < t.next ∧ id ∉ t.allocated
  pending_socket : ∀ id ∈ t.pending,
    t.sockets id = none ∨ t.sockets id = some (.dealer false)

/-- References and sockets fit together. -/
structure Linked (t : Tables) : Prop where
  socket_open : ∀ id, t.sockets id ≠ some .null
  ref_ok : ∀ r ∈ t.refs, t.RefOk r
  dealer_ref : ∀ id sn, t.sockets id = some (.dealer sn) → refCount t.refs id = 1
  sn_conns : ∀ id, (t.snConns id).isSome = true ↔ t.sockets id = some (.dealer true)

/-- What a reader of the tables relies on. -/
structure Ok (t : Tables) : Prop extends Numbered t, Linked t

/-- What can be done to the tables. -/
inductive Move (t : Tables) : Tables → Prop
  | allocate : Move t { t with next := t.next + 1, allocated := t.allocated ++ [t.next] }
  /-- A number is given up without having been used. -/
  | waste {id : ℤ} (h : id ∈ t.allocated) : Move t { t with allocated := t.allocated.erase id }
  | openRemote {id : ℤ} {pk : String} {refs : List Ref} (h : id ∈ t.allocated)
    (hr : refs.Perm (⟨⟨id, pk, ""⟩, id, true⟩ :: t.refs)) :
    Move t { t with
      allocated := t.allocated.erase id
      sockets := Function.update t.sockets id (some (.dealer false))
      pending := t.pending ++ [id]
      refs := refs }
  | openSn {k : ConnectionID} {refs : List Ref} (hk : k.sn = true)
    (hr : refs.Perm (⟨k, t.next, true⟩ :: t.refs)) :
    Move t { t with
      next := t.next + 1
      sockets := Function.update t.sockets t.next (some (.dealer true))
      snConns := Function.update t.snConns t.next (some k)
      refs := refs }
  | listen : Move t { t with
      next := t.next + 1
      sockets := Function.update t.sockets t.next (some .router) }
  /-- A service node has been heard on a listening socket. -/
  | file {k : ConnectionID} {id : ℤ} {refs : List Ref} (hk : k.sn = true)
    (hs : t.sockets id = some .router) (hr : refs.Perm (⟨k, id, false⟩ :: t.refs)) :
    Move t { t with refs := refs }
  | settle {pending : List ℤ} (h : pending ⊆ t.pending) : Move t { t with pending := pending }
  /-- References are dropped, and the sockets of the outgoing ones among them closed. -/
  | drop (dropped : List Ref) {refs : List Ref} {sockets : ℤ → Option Socket}
    {snConns : ℤ → Option ConnectionID} (hr : t.refs.Perm (dropped ++ refs))
    (hclosed : ∀ id, Closes dropped id → sockets id = none ∧ snConns id = none)
    (hkept : ∀ id, ¬ Closes dropped id → sockets id = t.sockets id ∧ snConns id = t.snConns id) :
    Move t { t with refs := refs, sockets := sockets, snConns := snConns }

/-! ## Counting references -/

theorem refCount_cons (r : Ref) (refs : List Ref) (id : ℤ) :
    refCount (r :: refs) id = refCount refs id + if r.outgoing && r.connId == id then 1 else 0 :=
  List.countP_cons ..

theorem refCount_append (l m : List Ref) (id : ℤ) :
    refCount (l ++ m) id = refCount l id + refCount m id := List.countP_append ..

theorem refCount_perm {l m : List Ref} (h : l.Perm m) (id : ℤ) : refCount l id = refCount m id :=
  h.countP_eq _

theorem refCount_pos {refs : List Ref} {id : ℤ} : 0 < refCount refs id ↔ Closes refs id := by
  simp [refCount, Closes, List.countP_pos_iff]

theorem refCount_eq_zero {refs : List Ref} {id : ℤ} (h : ¬ Closes refs id) :
    refCount refs id = 0 := by
  rw [← refCount_pos] at h
  omega

/-! ## Transporting a reference -/

/-- A reference only depends on the two table entries for its own number. -/
theorem RefOk.congr {t t' : Tables} {r : Ref} (h : t.RefOk r)
    (hs : t'.sockets r.connId = t.sockets r.connId)
    (hi : t'.snConns r.connId = t.snConns r.connId) : t'.RefOk r := by
  cases h with
  | incoming hk hr => exact .incoming hk (hs.trans hr)
  | toSn hk hd hk' => exact .toSn hk (hs.trans hd) (hi.trans hk')
  | remote hk hid hr hd => exact .remote hk hid hr (hs.trans hd)

/-- A reference leads to a socket, and an outgoing one to an outgoing socket. -/
theorem RefOk.socket {t : Tables} {r : Ref} (h : t.RefOk r) :
    ∃ s, t.sockets r.connId = some s ∧ (r.outgoing = true ↔ ∃ sn, s = .dealer sn) := by
  cases h with
  | incoming hk hs => exact ⟨_, hs, by simp⟩
  | toSn hk hs hi => exact ⟨_, hs, by simp⟩
  | remote hk hid hr hs => exact ⟨_, hs, by simp⟩

/-! ## References and sockets -/

namespace Linked

variable {t t' : Tables}

/-- There are no references to a number that has no socket. -/
theorem ne_of_sockets_none (h : t.Linked) {id : ℤ} (hid : t.sockets id = none) {r : Ref}
    (hr : r ∈ t.refs) : r.connId ≠ id := by
  rintro rfl
  obtain ⟨s, hs, _⟩ := (h.ref_ok r hr).socket
  rw [hid] at hs
  cases hs

theorem refCount_of_sockets_none (h : t.Linked) {id : ℤ} (hid : t.sockets id = none) :
    refCount t.refs id = 0 :=
  refCount_eq_zero fun ⟨_, hr, _, he⟩ => h.ne_of_sockets_none hid hr he

theorem snConns_of_sockets_none (h : t.Linked) {id : ℤ} (hid : t.sockets id = none) :
    t.snConns id = none := by
  rw [← Option.not_isSome_iff_eq_none, h.sn_conns id, hid]
  exact nofun

/-- A socket with a new number is added, together with a reference to it if it is outgoing. -/
theorem opened (h : t.Linked) (new : List Ref) {id : ℤ} {s : Socket}
    (hid : t.sockets id = none) (hs : t'.sockets = Function.update t.sockets id (some s))
    (hi : ∀ j ≠ id, t'.snConns j = t.snConns j) (hr : t'.refs.Perm (new ++ t.refs))
    (hnull : s ≠ .null) (hsn : (t'.snConns id).isSome = true ↔ s = .dealer true)
    (hnew : ∀ r ∈ new, r.connId = id ∧ t'.RefOk r)
    (hcount : (∃ sn, s = .dealer sn) → refCount new id = 1) : t'.Linked := by
  have hself : t'.sockets id = some s := by rw [hs, Function.update_self]
  have hother : ∀ j ≠ id, t'.sockets j = t.sockets j := fun j hj => by
    rw [hs, Function.update_of_ne hj]
  refine ⟨fun j => ?_, fun r hm => ?_, fun j sn hj => ?_, fun j => ?_⟩
  · rcases eq_or_ne j id with rfl | hj
    · rw [hself]; exact fun he => hnull (Option.some.inj he)
    · rw [hother j hj]; exact h.socket_open j
  · rcases List.mem_append.1 (hr.mem_iff.1 hm) with hm | hm
    · exact (hnew r hm).2
    · have hne := h.ne_of_sockets_none hid hm
      exact (h.ref_ok r hm).congr (hother _ hne) (hi _ hne)
  · rw [refCount_perm hr, refCount_append]
    rcases eq_or_ne j id with rfl | hne
    · rw [hself] at hj
      rw [h.refCount_of_sockets_none hid, hcount ⟨sn, Option.some.inj hj⟩]
    · rw [hother j hne] at hj
      rw [h.dealer_ref j sn hj, refCount_eq_zero]
      rintro ⟨r, hm, _, rfl⟩
      exact hne (hnew r hm).1
  · rcases eq_or_ne j id with rfl | hj
    · rw [hself, hsn]; exact ⟨congrArg some, Option.some.inj⟩
    · rw [hi j hj, hother j hj]; exact h.sn_conns j

/-- **Dropping references together with their outgoing sockets leaves no other reference hanging.**
The reason is that the socket of a dropped outgoing reference has no second one. -/
theorem dropped (h : t.Linked) {gone : List Ref} (hr : t.refs.Perm (gone ++ t'.refs))
    (hclosed : ∀ id, Closes gone id → t'.sockets id = none ∧ t'.snConns id = none)
    (hkept : ∀ id, ¬ Closes gone id →
      t'.sockets id = t.sockets id ∧ t'.snConns id = t.snConns id) : t'.Linked := by
  have hmem : ∀ {r}, r ∈ t'.refs → r ∈ t.refs := fun hm =>
    hr.mem_iff.2 (List.mem_append_right _ hm)
  have hsock : ∀ {id s}, t'.sockets id = some s → ¬ Closes gone id := fun hs hc => by
    rw [(hclosed _ hc).1] at hs
    cases hs
  -- the socket of a reference that stays is not closed
  have hstay : ∀ r ∈ t'.refs, ¬ Closes gone r.connId := by
    rintro r hm ⟨d, hd, hout, hid⟩
    have hok := h.ref_ok d (hr.mem_iff.2 (List.mem_append_left _ hd))
    obtain ⟨s, hs, hdealer⟩ := hok.socket
    obtain ⟨sn, rfl⟩ := hdealer.1 hout
    rw [hid] at hs
    obtain ⟨s', hs', hdealer'⟩ := (h.ref_ok r (hmem hm)).socket
    rw [hs] at hs'
    have hrout : r.outgoing = true := hdealer'.2 ⟨sn, (Option.some.inj hs').symm⟩
    have hone := h.dealer_ref _ sn hs
    rw [refCount_perm hr, refCount_append] at hone
    have hgone : 0 < refCount gone r.connId := refCount_pos.2 ⟨d, hd, hout, hid⟩
    have hrest : 0 < refCount t'.refs r.connId := refCount_pos.2 ⟨r, hm, hrout, rfl⟩
    omega
  refine ⟨fun id hs => ?_, fun r hm => ?_, fun id sn hs => ?_, fun id => ?_⟩
  · rw [(hkept id (hsock hs)).1] at hs
    exact h.socket_open id hs
  · obtain ⟨hs, hi⟩ := hkept _ (hstay r hm)
    exact (h.ref_ok r (hmem hm)).congr hs hi
  · have hnc := hsock hs
    rw [(hkept id hnc).1] at hs
    have hone := h.dealer_ref id sn hs
    rw [refCount_perm hr, refCount_append, refCount_eq_zero hnc] at hone
    omega
  · by_cases hc : Closes gone id
    · rw [(hclosed id hc).1, (hclosed id hc).2]
      exact ⟨nofun, nofun⟩
    · rw [(hkept id hc).1, (hkept id hc).2]
      exact h.sn_conns id

end Linked

/-! ## Numbers -/

namespace Numbered

variable {t t' : Tables}

/-- A number that has been given out and not been used has no socket. -/
theorem sockets_allocated (h : t.Numbered) {id : ℤ} (hid : id ∈ t.allocated) :
    t.sockets id = none := by
  cases hs : t.sockets id with
  | none => rfl
  | some s => exact absurd hid (h.socket_lt id s hs).2

theorem sockets_next (h : t.Numbered) : t.sockets t.next = none := by
  cases hs : t.sockets t.next with
  | none => rfl
  | some s => exact absurd (h.socket_lt _ s hs).1 (lt_irrefl _)

theorem next_notMem_allocated (h : t.Numbered) : t.next ∉ t.allocated :=
  fun hm => lt_irrefl _ (h.allocated_range _ hm).2

/-- What it takes to keep the numbers in order: what is new in each table is accounted for. -/
theorem update (h : t.Numbered) (hnext : t.next ≤ t'.next) (hnodup : t'.allocated.Nodup)
    (halloc : ∀ id ∈ t'.allocated, id ∈ t.allocated ∨ t.next ≤ id ∧ id < t'.next)
    (hsock : ∀ id s, t'.sockets id = some s →
      t.sockets id = some s ∨ id < t'.next ∧ id ∉ t'.allocated)
    (hpend : ∀ id ∈ t'.pending,
      id ∈ t.pending ∧ (t'.sockets id = t.sockets id ∨ t'.sockets id = none) ∨
      0 < id ∧ id < t'.next ∧ id ∉ t'.allocated ∧ t'.sockets id = some (.dealer false)) :
    t'.Numbered := by
  have hpos := h.next_pos
  -- a number that is not free stays so
  have hused : ∀ id, id < t.next → id ∉ t.allocated → id ∉ t'.allocated := fun id hlt hna hm => by
    rcases halloc id hm with hm | hm
    · exact hna hm
    · omega
  refine ⟨by omega, fun id s hs => ?_, hnodup, fun id hm => ?_, fun id hm => ?_, fun id hm => ?_⟩
  · rcases hsock id s hs with hs | hs
    · obtain ⟨hlt, hna⟩ := h.socket_lt id s hs
      exact ⟨by omega, hused id hlt hna⟩
    · exact hs
  · rcases halloc id hm with hm | hm
    · have := h.allocated_range id hm
      omega
    · omega
  · rcases hpend id hm with ⟨hm, _⟩ | ⟨hid, hlt, hna, _⟩
    · obtain ⟨hid, hlt, hna⟩ := h.pending_range id hm
      exact ⟨hid, by omega, hused id hlt hna⟩
    · exact ⟨hid, hlt, hna⟩
  · rcases hpend id hm with ⟨hm, hs | hs⟩ | ⟨_, _, _, hs⟩
    · rw [hs]; exact h.pending_socket id hm
    · exact Or.inl hs
    · exact Or.inr hs

/-- Nothing but a socket changes, and it gets the next number. -/
theorem update_next (h : t.Numbered) {s : Socket} (hnext : t'.next = t.next + 1)
    (hs : t'.sockets = Function.update t.sockets t.next (some s))
    (ha : t'.allocated = t.allocated) (hp : t'.pending = t.pending) : t'.Numbered := by
  refine h.update (by omega) (ha ▸ h.allocated_nodup) (fun id hm => Or.inl (ha ▸ hm))
    (fun id s' hs' => ?_) (fun id hm => ?_)
  · rcases eq_or_ne id t.next with rfl | hne
    · exact Or.inr ⟨by omega, ha ▸ h.next_notMem_allocated⟩
    · rw [hs, Function.update_of_ne hne] at hs'
      exact Or.inl hs'
  · rw [hp] at hm
    have hlt := (h.pending_range id hm).2.1
    rw [hs, Function.update_of_ne (by omega)]
    exact Or.inl ⟨hm, Or.inl rfl⟩

/-- Sockets and pending numbers only go. -/
theorem update_sub (h : t.Numbered) (hnext : t'.next = t.next) (ha : t'.allocated = t.allocated)
    (hs : ∀ id, t'.sockets id = t.sockets id ∨ t'.sockets id = none)
    (hp : t'.pending ⊆ t.pending) : t'.Numbered := by
  refine h.update (by omega) (ha ▸ h.allocated_nodup) (fun id hm => Or.inl (ha ▸ hm))
    (fun id s hs' => ?_) (fun id hm => Or.inl ⟨hp hm, hs id⟩)
  rcases hs id with he | he
  · exact Or.inl (he ▸ hs')
  · rw [he] at hs'; cases hs'

end Numbered

/-! ## The moves keep the tables in order -/

variable {t t' : Tables}

/-- Nothing is new but a reference of a service node that connected to us. -/
theorem Linked.filed (h : t.Linked) {k : ConnectionID} {id : ℤ} (hk : k.sn = true)
    (hid : t.sockets id = some .router) (hs : t'.sockets = t.sockets)
    (hi : t'.snConns = t.snConns) (hr : t'.refs.Perm (⟨k, id, false⟩ :: t.refs)) :
    t'.Linked := by
  refine ⟨fun j => ?_, fun r hm => ?_, fun j sn hj => ?_, fun j => ?_⟩
  · rw [hs]; exact h.socket_open j
  · rcases List.mem_cons.1 (hr.mem_iff.1 hm) with rfl | hm
    · exact .incoming hk (hs ▸ hid)
    · exact (h.ref_ok r hm).congr (by rw [hs]) (by rw [hi])
  · rw [hs] at hj
    rw [refCount_perm hr, refCount_cons, h.dealer_ref j sn hj]
    rfl
  · rw [hs, hi]; exact h.sn_conns j

theorem Linked.openRemote (h : t.Ok) {id : ℤ} {pk : String} (hid : id ∈ t.allocated)
    (hs : t'.sockets = Function.update t.sockets id (some (.dealer false)))
    (hi : t'.snConns = t.snConns) (hr : t'.refs.Perm (⟨⟨id, pk, ""⟩, id, true⟩ :: t.refs)) :
    t'.Linked := by
  have hfree := h.sockets_allocated hid
  have hpos := (h.allocated_range id hid).1
  refine h.opened [⟨⟨id, pk, ""⟩, id, true⟩] hfree hs (fun j _ => by rw [hi]) hr nofun
    ?_ (fun r hm => ?_) (fun _ => by simp [refCount])
  · rw [hi, h.snConns_of_sockets_none hfree]
    exact ⟨nofun, nofun⟩
  · rw [List.mem_singleton.1 hm]
    refine ⟨rfl, .remote ?_ rfl rfl (by rw [hs, Function.update_self])⟩
    simp only [ConnectionID.sn, snId, beq_eq_false_iff_ne]
    omega

theorem Linked.openSn (h : t.Ok) {k : ConnectionID} (hk : k.sn = true)
    (hs : t'.sockets = Function.update t.sockets t.next (some (.dealer true)))
    (hi : t'.snConns = Function.update t.snConns t.next (some k))
    (hr : t'.refs.Perm (⟨k, t.next, true⟩ :: t.refs)) : t'.Linked := by
  refine h.opened [⟨k, t.next, true⟩] h.sockets_next hs
    (fun j hj => by rw [hi, Function.update_of_ne hj]) hr nofun ?_ (fun r hm => ?_)
    (fun _ => by simp [refCount])
  · rw [hi, Function.update_self]
    exact ⟨fun _ => rfl, fun _ => rfl⟩
  · rw [List.mem_singleton.1 hm]
    exact ⟨rfl, .toSn hk (by rw [hs, Function.update_self]) (by rw [hi, Function.update_self])⟩

theorem Linked.listen (h : t.Ok) (hs : t'.sockets = Function.update t.sockets t.next (some .router))
    (hi : t'.snConns = t.snConns) (hr : t'.refs = t.refs) : t'.Linked := by
  refine h.opened [] h.sockets_next hs (fun j _ => by rw [hi]) (by rw [hr]; rfl) nofun
    ?_ nofun nofun
  rw [hi, h.snConns_of_sockets_none h.sockets_next]
  exact ⟨nofun, nofun⟩

/-- Tables that agree on references, sockets and index. -/
theorem Linked.same (h : t.Linked) (hr : t'.refs = t.refs) (hs : t'.sockets = t.sockets)
    (hi : t'.snConns = t.snConns) : t'.Linked := by
  refine ⟨hs ▸ h.socket_open, fun r hm => ?_, hs ▸ hr ▸ h.dealer_ref, hs ▸ hi ▸ h.sn_conns⟩
  exact (h.ref_ok r (hr ▸ hm)).congr (by rw [hs]) (by rw [hi])

theorem Numbered.allocate (h : t.Numbered) :
    Numbered { t with next := t.next + 1, allocated := t.allocated ++ [t.next] } := by
  have hlt : ∀ {id}, id < t.next → id ∉ t.allocated → id ∉ t.allocated ++ [t.next] := by
    intro id hlt hna hm
    rcases List.mem_append.1 hm with hm | hm
    · exact hna hm
    · rw [List.mem_singleton.1 hm] at hlt
      exact lt_irrefl _ hlt
  refine h.update (by show t.next ≤ t.next + 1; omega) ?_ (fun id hm => ?_)
    (fun id s hs => Or.inl hs) (fun id hm => Or.inl ⟨hm, Or.inl rfl⟩)
  · refine List.nodup_append.2 ⟨h.allocated_nodup, List.nodup_singleton _, fun a ha b hb => ?_⟩
    rw [List.mem_singleton.1 hb]
    rintro rfl
    exact h.next_notMem_allocated ha
  · rcases List.mem_append.1 hm with hm | hm
    · exact Or.inl hm
    · rw [List.mem_singleton.1 hm]
      exact Or.inr ⟨le_rfl, by show t.next < t.next + 1; omega⟩

theorem Numbered.openRemote (h : t.Numbered) {id : ℤ} (hid : id ∈ t.allocated)
    (hnext : t'.next = t.next) (ha : t'.allocated = t.allocated.erase id)
    (hs : t'.sockets = Function.update t.sockets id (some (.dealer false)))
    (hp : t'.pending = t.pending ++ [id]) : t'.Numbered := by
  have hrange := h.allocated_range id hid
  have hfree : id ∉ t'.allocated := ha ▸ h.allocated_nodup.not_mem_erase
  refine h.update (by omega) (ha ▸ h.allocated_nodup.erase id)
    (fun j hm => Or.inl (List.mem_of_mem_erase (ha ▸ hm))) (fun j s hj => ?_) (fun j hm => ?_)
  · rcases eq_or_ne j id with rfl | hne
    · exact Or.inr ⟨by omega, hfree⟩
    · rw [hs, Function.update_of_ne hne] at hj
      exact Or.inl hj
  · rw [hp] at hm
    rcases List.mem_append.1 hm with hm | hm
    · have hne : j ≠ id := fun he => (h.pending_range j hm).2.2 (he ▸ hid)
      rw [hs, Function.update_of_ne hne]
      exact Or.inl ⟨hm, Or.inl rfl⟩
    · rw [List.mem_singleton.1 hm, hs, Function.update_self]
      exact Or.inr ⟨hrange.1, by omega, hfree, rfl⟩

/-- **Every move keeps the tables in order.** -/
theorem Ok.move (h : t.Ok) (hm : t.Move t') : t'.Ok := by
  have hn := h.toNumbered
  have hl := h.toLinked
  cases hm with
  | allocate => exact ⟨hn.allocate, hl.same rfl rfl rfl⟩
  | waste hid =>
    refine ⟨hn.update le_rfl (hn.allocated_nodup.erase _) (fun j hm => ?_) (fun j s hs => Or.inl hs)
      (fun j hm => Or.inl ⟨hm, Or.inl rfl⟩), hl.same rfl rfl rfl⟩
    exact Or.inl (List.mem_of_mem_erase hm)
  | openRemote hid hr =>
    exact ⟨hn.openRemote hid rfl rfl rfl rfl, Linked.openRemote h hid rfl rfl hr⟩
  | openSn hk hr => exact ⟨hn.update_next rfl rfl rfl rfl, Linked.openSn h hk rfl rfl hr⟩
  | listen => exact ⟨hn.update_next rfl rfl rfl rfl, Linked.listen h rfl rfl rfl⟩
  | file hk hs hr =>
    exact ⟨hn.update_sub rfl rfl (fun _ => Or.inl rfl) (List.Subset.refl _),
      hl.filed hk hs rfl rfl hr⟩
  | settle hp => exact ⟨hn.update_sub rfl rfl (fun _ => Or.inl rfl) hp, hl.same rfl rfl rfl⟩
  | drop gone hr hclosed hkept =>
    refine ⟨hn.update_sub rfl rfl (fun id => ?_) (List.Subset.refl _),
      hl.dropped hr hclosed hkept⟩
    by_cases hc : Closes gone id
    · exact Or.inr (hclosed id hc).1
    · exact Or.inl (hkept id hc).1

theorem Ok.moves (h : t.Ok) (hm : Relation.ReflTransGen Move t t') : t'.Ok := by
  induction hm with
  | refl => exact h
  | tail _ hm ih => exact ih.move hm

end Tables

end OxenMQ
