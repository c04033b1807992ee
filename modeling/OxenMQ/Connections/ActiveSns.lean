import Mathlib.Data.List.Perm.Basic
import Mathlib.Data.Set.Basic
import OxenMQ.Connections.Changes

/-!
# The list of active service nodes

`SET_SNS` and `UPDATE_SNS` each stand for a simple operation on the set of active service nodes
(`ConnEvent.updateActive`), and `activeAfter` folds them over everything that has happened.
`Conn.run_active` says that this is the set the proxy has.

The code does not compute the new set directly.  It works out which pubkeys are new and which are
gone, and for `SET_SNS` it stops looking for the latter as soon as the sizes add up.  That is right
because neither list has duplicates, see `removedScan_eq`.
-/

set_option autoImplicit false

namespace OxenMQ

variable {κ : Type}

/-- What an event means for the set of active service nodes.  A pubkey that is both added and
removed stays or becomes active. -/
def ConnEvent.updateActive (active : Set String) : ConnEvent → Set String
  | .setActiveSns pubkeys => {pk | pk ∈ pubkeys ∧ pk.length = 32}
  | .updateActiveSns added removed =>
    {pk | (pk ∈ active ∧ (pk ∈ removed → pk ∈ added)) ∨ (pk ∈ added ∧ pk.length = 32)}
  | _ => active

/-- The active service nodes after the events `es`. -/
def activeAfter (es : List ConnEvent) : Set String := es.foldl ConnEvent.updateActive ∅

theorem activeAfter_snoc (es : List ConnEvent) (e : ConnEvent) :
    activeAfter (es ++ [e]) = e.updateActive (activeAfter es) := by
  simp [activeAfter]

theorem ConnEvent.updateActive_of_updatesSns {e : ConnEvent} (h : e.updatesSns = false)
    (active : Set String) : e.updateActive active = active := by
  cases e with
  | setActiveSns pubkeys => cases h
  | updateActiveSns added removed => cases h
  | _ => rfl

namespace Conn

variable {cfg : Config κ} {c c' : Conn}

/-! ## What is gone from the list -/

/-- The pubkeys of one list that are in the other, counted from either side. -/
theorem length_eq_of_nodup {active pubkeys : List String} (ha : active.Nodup) (hp : pubkeys.Nodup) :
    active.length + (pubkeys.filter fun pk => decide (pk ∉ active)).length =
      pubkeys.length + (active.filter fun pk => decide (pk ∉ pubkeys)).length := by
  have hcommon : (active.filter fun pk => decide (pk ∈ pubkeys)).Perm
      (pubkeys.filter fun pk => decide (pk ∈ active)) := by
    refine (List.perm_ext_iff_of_nodup (ha.filter _) (hp.filter _)).2 fun pk => ?_
    simp [and_comm]
  have hactive := List.length_eq_length_filter_add (l := active) fun pk => decide (pk ∈ pubkeys)
  have hpubkeys := List.length_eq_length_filter_add (l := pubkeys) fun pk => decide (pk ∈ active)
  simp only [← decide_not] at hactive hpubkeys
  have hlen := hcommon.length_eq
  omega

/-- Where nothing is new and the sizes agree, nothing is gone either. -/
theorem gone_eq_nil {active pubkeys : List String} (ha : active.Nodup) (hp : pubkeys.Nodup)
    (hnew : (pubkeys.filter fun pk => decide (pk ∉ active)) = [])
    (hlen : active.length = pubkeys.length) :
    (active.filter fun pk => decide (pk ∉ pubkeys)) = [] := by
  have hcount := length_eq_of_nodup ha hp
  rw [hnew, hlen] at hcount
  exact List.length_eq_zero_iff.1 (by simpa using hcount.symm)

/-- The scan finds everything that is gone, although it may stop early. -/
theorem removedScan_eq {active pubkeys : List String} (ha : active.Nodup) (hp : pubkeys.Nodup) :
    removedScan active pubkeys (pubkeys.filter fun pk => decide (pk ∉ active)) active [] =
      active.filter fun pk => decide (pk ∉ pubkeys) := by
  have hcount := length_eq_of_nodup ha hp
  -- the pubkeys already looked at, and those still to come
  suffices hscan : ∀ seen rest, active = seen ++ rest →
      removedScan active pubkeys (pubkeys.filter fun pk => decide (pk ∉ active)) rest
        (seen.filter fun pk => decide (pk ∉ pubkeys)) =
      active.filter fun pk => decide (pk ∉ pubkeys) from hscan [] active rfl
  intro seen rest
  induction rest generalizing seen with
  | nil =>
    rintro h
    rw [removedScan, h, List.append_nil]
  | cons pk rest ih =>
    intro h
    have hseen : (if pk ∈ pubkeys then seen.filter fun pk => decide (pk ∉ pubkeys)
        else (seen.filter fun pk => decide (pk ∉ pubkeys)) ++ [pk]) =
        (seen ++ [pk]).filter fun pk => decide (pk ∉ pubkeys) := by
      by_cases hpk : pk ∈ pubkeys <;> simp [hpk]
    rw [removedScan, hseen]
    have hsplit : active = (seen ++ [pk]) ++ rest := by simp [h]
    split
    · rename_i hstop
      -- the sizes add up, so nothing that is gone can be in the rest
      have hall : active.filter (fun pk => decide (pk ∉ pubkeys)) =
          (seen ++ [pk]).filter (fun pk => decide (pk ∉ pubkeys)) ++
            rest.filter (fun pk => decide (pk ∉ pubkeys)) := by
        rw [← List.filter_append, ← hsplit]
      have hle := List.length_filter_le (fun pk => decide (pk ∉ pubkeys)) active
      have hlen := congrArg List.length hall
      rw [List.length_append] at hlen
      have hrest : rest.filter (fun pk => decide (pk ∉ pubkeys)) = [] :=
        List.length_eq_zero_iff.1 (by omega)
      rw [hall, hrest, List.append_nil]
    · exact ih _ hsplit

/-! ## The update -/

theorem foldlM_removeSn_active {closeLinger : ℤ} {removed : List String}
    (h : removed.foldlM (removeSn closeLinger) c = .ok c') :
    c'.activeServiceNodes = c.activeServiceNodes.filter fun pk => decide (pk ∉ removed) := by
  induction removed generalizing c with
  | nil => cases h; simp
  | cons pk removed ih =>
    rw [List.foldlM_cons] at h
    obtain ⟨c₁, h₁, h⟩ := Except.bind_eq_ok.1 h
    obtain ⟨_, rfl⟩ := removeSn_ok h₁
    rw [ih h, List.filter_filter]
    refine List.filter_congr fun x _ => ?_
    simp [Bool.and_comm]

/-- `active_service_nodes` has no pubkey twice, and only pubkeys of 32 bytes. -/
structure ActiveOk (c : Conn) : Prop where
  nodup : c.activeServiceNodes.Nodup
  length : ∀ pk ∈ c.activeServiceNodes, pk.length = 32

theorem insertAll_mem {added active : List String} {pk : String} :
    pk ∈ added.foldl (fun l pk => if pk ∈ l then l else l ++ [pk]) active ↔
      pk ∈ active ∨ pk ∈ added := by
  induction added generalizing active with
  | nil => simp
  | cons x added ih =>
    rw [List.foldl_cons, ih]
    split
    · rename_i hx
      rw [List.mem_cons]
      constructor
      · rintro (h | h)
        · exact Or.inl h
        · exact Or.inr (Or.inr h)
      · rintro (h | rfl | h)
        · exact Or.inl h
        · exact Or.inl hx
        · exact Or.inr h
    · simp [or_assoc]

theorem insertAll_nodup {added active : List String} (h : active.Nodup) :
    (added.foldl (fun l pk => if pk ∈ l then l else l ++ [pk]) active).Nodup := by
  induction added generalizing active with
  | nil => exact h
  | cons x added ih =>
    rw [List.foldl_cons]
    refine ih ?_
    split
    · exact h
    · rename_i hx
      exact h.append (List.nodup_singleton x) (by simpa using hx)

/-- Whoever was active and is not removed is active, and whoever is added. -/
theorem proxyUpdateActiveSnsClean_active {closeLinger : ℤ} {added removed : List String}
    (h : c.proxyUpdateActiveSnsClean closeLinger added removed = .ok c') (hok : c.ActiveOk)
    (hadded : ∀ pk ∈ added, pk.length = 32) :
    c'.ActiveOk ∧ ∀ pk, pk ∈ c'.activeServiceNodes ↔
      (pk ∈ c.activeServiceNodes ∧ pk ∉ removed) ∨ pk ∈ added := by
  obtain ⟨c₁, h₁, h⟩ := Except.bind_eq_ok.1 h
  cases h
  have hactive := foldlM_removeSn_active h₁
  have hmem : ∀ pk, pk ∈ added.foldl (fun l pk => if pk ∈ l then l else l ++ [pk])
      c₁.activeServiceNodes ↔ (pk ∈ c.activeServiceNodes ∧ pk ∉ removed) ∨ pk ∈ added := by
    intro pk
    rw [insertAll_mem, hactive, List.mem_filter, decide_eq_true_iff]
  refine ⟨⟨insertAll_nodup (hactive ▸ hok.nodup.filter _), fun pk hpk => ?_⟩, hmem⟩
  rcases (hmem pk).1 hpk with ⟨hpk, _⟩ | hpk
  · exact hok.length pk hpk
  · exact hadded pk hpk

/-- The shortcut and the early end of the scan make no difference. -/
theorem proxySetActiveSns_eq (closeLinger : ℤ) {pubkeys valid : List String}
    (hpubkeys : pubkeys.Nodup) (hok : c.ActiveOk)
    (hvalid : valid = pubkeys.filter fun pk => pk.length = 32) :
    c.proxySetActiveSns closeLinger pubkeys = c.proxyUpdateActiveSnsClean closeLinger
      (valid.filter fun pk => decide (pk ∉ c.activeServiceNodes))
      (c.activeServiceNodes.filter fun pk => decide (pk ∉ valid)) := by
  have hnodup : valid.Nodup := hvalid ▸ hpubkeys.filter _
  rw [proxySetActiveSns, ← hvalid]
  dsimp only
  split
  · rename_i hsame
    rw [hsame.1, gone_eq_nil hok.nodup hnodup hsame.1 hsame.2]
    rfl
  · rw [removedScan_eq hok.nodup hnodup]

theorem proxySetActiveSns_active {closeLinger : ℤ} {pubkeys : List String}
    (hpubkeys : pubkeys.Nodup) (h : c.proxySetActiveSns closeLinger pubkeys = .ok c')
    (hok : c.ActiveOk) :
    c'.ActiveOk ∧ ∀ pk, pk ∈ c'.activeServiceNodes ↔ pk ∈ pubkeys ∧ pk.length = 32 := by
  rw [proxySetActiveSns_eq closeLinger hpubkeys hok rfl] at h
  obtain ⟨hok', hmem⟩ := proxyUpdateActiveSnsClean_active h hok fun pk hpk => by
    simpa using (List.mem_filter.1 (List.mem_filter.1 hpk).1).2
  refine ⟨hok', fun pk => ?_⟩
  simp only [hmem, List.mem_filter, decide_eq_true_iff]
  tauto

theorem proxyUpdateActiveSns_active {closeLinger : ℤ} {added removed : List String}
    (h : c.proxyUpdateActiveSns closeLinger added removed = .ok c') (hok : c.ActiveOk) :
    c'.ActiveOk ∧ ∀ pk, pk ∈ c'.activeServiceNodes ↔
      (pk ∈ c.activeServiceNodes ∧ (pk ∈ removed → pk ∈ added)) ∨
        (pk ∈ added ∧ pk.length = 32) := by
  obtain ⟨hok', hmem⟩ := proxyUpdateActiveSnsClean_active h hok fun pk hpk => by
    simpa using (of_decide_eq_true (List.mem_filter.1 hpk).2).1
  refine ⟨hok', fun pk => ?_⟩
  have hlen := hok.length pk
  rw [hmem, List.mem_filter, List.mem_filter, decide_eq_true_iff, decide_eq_true_iff]
  tauto

/-! ## The list over a run -/

/-- Nothing else changes the list. -/
theorem Changes.activeServiceNodes_eq {ev : ConnEvent} {o : Option ℤ} (h : Changes cfg ev o c c')
    (hev : ev.updatesSns = false) : c'.activeServiceNodes = c.activeServiceNodes :=
  h.induction (P := fun s => s.activeServiceNodes = c.activeServiceNodes)
    (fun _ _ _ hs hchange => (hchange.frame.1 hev).trans hs) rfl

/-- One step of the proxy is one step of the set. -/
theorem step_active {cfg : Config κ} {e : ConnEvent} {active : Set String}
    (h : step cfg c e = some c') (hok : c.ActiveOk)
    (hactive : ∀ pk, pk ∈ c.activeServiceNodes ↔ pk ∈ active) :
    c'.ActiveOk ∧ ∀ pk, pk ∈ c'.activeServiceNodes ↔ pk ∈ e.updateActive active := by
  cases hev : e.updatesSns with
  | false =>
    obtain ⟨o, hchanges⟩ := step_changes h
    have hsame := hchanges.activeServiceNodes_eq hev
    rw [e.updateActive_of_updatesSns hev]
    exact ⟨⟨hsame ▸ hok.nodup, hsame ▸ hok.length⟩, fun pk => hsame ▸ hactive pk⟩
  | true =>
    cases e with
    | setActiveSns pubkeys =>
      rw [step] at h
      split at h
      · rename_i hnodup
        exact proxySetActiveSns_active hnodup (Except.toOption_eq_some.1 h) hok
      · cases h
    | updateActiveSns added removed =>
      rw [step] at h
      split at h
      · obtain ⟨hok', hmem⟩ := proxyUpdateActiveSns_active (Except.toOption_eq_some.1 h) hok
        refine ⟨hok', fun pk => ?_⟩
        rw [hmem, hactive]
        rfl
      · cases h
    | _ => cases hev

/-- **The proxy's list is the fold of all updates.** -/
theorem run_active {cfg : Config κ} {es : List ConnEvent}
    (h : Transition.run (step cfg) start es = some c) :
    c.ActiveOk ∧ ∀ pk, pk ∈ c.activeServiceNodes ↔ pk ∈ activeAfter es := by
  have hstart : start.ActiveOk := ⟨List.nodup_nil, by simp [start]⟩
  refine Transition.run_induction_history
    (P := fun es c => c.ActiveOk ∧ ∀ pk, pk ∈ c.activeServiceNodes ↔ pk ∈ activeAfter es)
    ⟨hstart, by simp [start, activeAfter]⟩ ?_ h
  rintro es c e c' - ⟨hok, hactive⟩ he
  rw [activeAfter_snoc]
  exact step_active he hok hactive

end Conn

end OxenMQ
