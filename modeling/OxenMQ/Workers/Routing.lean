import OxenMQ.Lib.Radix
import OxenMQ.Workers.System

/-!
# The addresses of the workers

The proxy and the workers talk through a router socket, so a worker has an address: the letter `w`
or `t` and the four bytes of its number.  A thread puts its address on its socket, the proxy has the
same address in the worker's record, and `proxy_worker_message` works the worker out from the first
part of a message.

A message that the proxy takes for one of a worker is one of that worker, and the proxy has a record
of it (`Pool.of_decodeWorkerMessage`); and what a worker says is understood as it was meant
(`Sys.handleWorkerParts_eq`).
-/

set_option autoImplicit false

namespace OxenMQ

/-! ## Numbers in memory -/

/-- The four bytes of a `uint32_t`, the low one first. -/
def uint32Bytes (n : ℕ) : List Char := (Radix.digits 256 4 n).reverse.map Char.ofNat

/-- The `uint32_t` that has these bytes. -/
def uint32OfBytes (bytes : List Char) : ℕ := Radix.value 256 (bytes.map Char.toNat).reverse

theorem length_uint32Bytes (n : ℕ) : (uint32Bytes n).length = 4 := by
  simp [uint32Bytes]

theorem uint32OfBytes_uint32Bytes {n : ℕ} (h : n < 2 ^ 32) : uint32OfBytes (uint32Bytes n) = n := by
  have hbytes : (uint32Bytes n).map Char.toNat = (Radix.digits 256 4 n).reverse := by
    rw [uint32Bytes, List.map_map]
    refine (List.map_congr_left fun d hd => ?_).trans (List.map_id _)
    exact Radix.toNat_ofNat_of_lt (Radix.digits_lt (by decide) 4 n d (List.mem_reverse.1 hd))
  rw [uint32OfBytes, hbytes, List.reverse_reverse, Radix.value_digits]
  exact Nat.mod_eq_of_lt h

theorem uint32Bytes_uint32OfBytes {bytes : List Char} (hlen : bytes.length = 4)
    (hbytes : ∀ c ∈ bytes, c.toNat < 256) : uint32Bytes (uint32OfBytes bytes) = bytes := by
  have hlt : ∀ d ∈ (bytes.map Char.toNat).reverse, d < 256 := fun d hd => by
    obtain ⟨c, hc, rfl⟩ := List.mem_map.1 (List.mem_reverse.1 hd)
    exact hbytes c hc
  have hdigits := Radix.digits_value hlt
  rw [List.length_reverse, List.length_map, hlen] at hdigits
  rw [uint32Bytes, uint32OfBytes, hdigits, List.reverse_reverse, List.map_map]
  exact (List.map_congr_left fun c _ => Char.ofNat_toNat c).trans (List.map_id _)

/-! ## Addresses -/

namespace Worker

/-- `worker_id`: the tagged threads are numbered from one. -/
def id : Worker → ℕ
  | untagged i => i
  | tagged t => t + 1

def letter : Worker → Char
  | untagged _ => 'w'
  | tagged _ => 't'

/-- `worker_routing_id`. -/
def routingId (w : Worker) : String := String.ofList (w.letter :: uint32Bytes w.id)

theorem eq_of_letter_of_id {v w : Worker} (hletter : v.letter = w.letter) (hid : v.id = w.id) :
    v = w := by
  cases v with
  | untagged i =>
    cases w with
    | untagged j => exact congrArg untagged hid
    | tagged t => cases hletter
  | tagged t =>
    cases w with
    | untagged j => cases hletter
    | tagged u => exact congrArg tagged (Nat.succ.inj hid)

/-- Workers have different addresses as long as their numbers are `uint32_t`s. -/
theorem routingId_injective {v w : Worker} (hv : v.id < 2 ^ 32) (hw : w.id < 2 ^ 32)
    (h : v.routingId = w.routingId) : v = w := by
  obtain ⟨hletter, hbytes⟩ := List.cons.inj (String.ofList_injective h)
  refine eq_of_letter_of_id hletter ?_
  rw [← uint32OfBytes_uint32Bytes hv, hbytes, uint32OfBytes_uint32Bytes hw]

end Worker

/-! ## The messages of the workers -/

variable {κ : Type}

namespace Pool

/-- The first checks of `proxy_worker_message`: the worker a message comes from, and what it says.
-/
def decodeWorkerMessage (p : Pool κ) : List String → Option (Worker × String)
  | [route, cmd] =>
    match route.toList with
    | wtype :: bytes =>
      if bytes.length ≠ 4 ∨ wtype ≠ 'w' ∧ wtype ≠ 't' then none
      else
        let wid := uint32OfBytes bytes
        if wtype = 't' then
          if wid = 0 ∨ p.taggedWorkers.length < wid then none else some (.tagged (wid - 1), cmd)
        else if p.workers.length ≤ wid then none
        else some (.untagged wid, cmd)
    | [] => none
  | _ => none

theorem isSome_runInfo_untagged {p : Pool κ} {i : ℕ} :
    (p.runInfo (.untagged i)).isSome = true ↔ i < p.workers.length := by
  simp [runInfo]

theorem isSome_runInfo_tagged {p : Pool κ} {t : ℕ} :
    (p.runInfo (.tagged t)).isSome = true ↔ t < p.taggedWorkers.length := by
  simp [runInfo]

variable {p : Pool κ} {parts : List String} {w : Worker} {cmd : String}

/-- What a worker sends is taken for a message of it. -/
theorem decodeWorkerMessage_routingId (hid : w.id < 2 ^ 32) (hrun : (p.runInfo w).isSome = true)
    (cmd : String) : p.decodeWorkerMessage [w.routingId, cmd] = some (w, cmd) := by
  have hwid := uint32OfBytes_uint32Bytes hid
  rw [decodeWorkerMessage, Worker.routingId, String.toList_ofList]
  dsimp only
  rw [hwid, length_uint32Bytes]
  cases w with
  | untagged i =>
    have hi := isSome_runInfo_untagged.1 hrun
    simp [Worker.letter, Worker.id, Nat.not_le.2 hi]
  | tagged t =>
    have ht := isSome_runInfo_tagged.1 hrun
    simp [Worker.letter, Worker.id]
    omega

/-- What is taken for a message of a worker has its address, and the proxy has a record of it. -/
theorem of_decodeWorkerMessage (hbytes : ∀ part ∈ parts, ∀ c ∈ part.toList, c.toNat < 256)
    (h : p.decodeWorkerMessage parts = some (w, cmd)) :
    parts = [w.routingId, cmd] ∧ (p.runInfo w).isSome = true := by
  unfold decodeWorkerMessage at h
  split at h
  · rename_i route cmd'
    split at h
    · rename_i wtype bytes hroute
      obtain ⟨hguard, h⟩ := Option.ite_none_left_eq_some.1 h
      obtain ⟨hlen, htype⟩ : bytes.length = 4 ∧ (wtype ≠ 'w' → wtype = 't') := by
        simpa using hguard
      have hwid : uint32Bytes (uint32OfBytes bytes) = bytes :=
        uint32Bytes_uint32OfBytes hlen fun c hc =>
          hbytes route List.mem_cons_self c (hroute ▸ List.mem_cons_of_mem wtype hc)
      have haddress : ∀ v : Worker, v.letter = wtype → v.id = uint32OfBytes bytes →
          route = v.routingId := by
        intro v hletter hid
        rw [Worker.routingId, hletter, hid, hwid, ← hroute, String.ofList_toList]
      by_cases hw : wtype = 'w'
      · subst hw
        rw [if_neg (by decide)] at h
        obtain ⟨hrange, h⟩ := Option.ite_none_left_eq_some.1 h
        cases h
        refine ⟨?_, isSome_runInfo_untagged.2 (by omega)⟩
        rw [haddress (.untagged (uint32OfBytes bytes)) rfl rfl]
      · obtain rfl := htype hw
        rw [if_pos rfl] at h
        obtain ⟨hrange, h⟩ := Option.ite_none_left_eq_some.1 h
        cases h
        refine ⟨?_, isSome_runInfo_tagged.2 (by omega)⟩
        rw [haddress (.tagged (uint32OfBytes bytes - 1)) rfl (by rw [Worker.id]; omega)]
    · cases h
  · cases h

end Pool

/-! ## What the proxy makes of them -/

def WorkerReply.text : WorkerReply → String
  | .ran => "RAN"
  | .quitting => "QUITTING"

namespace Sys

variable [DecidableEq κ]

/-- `proxy_worker_message`, part by part.  What it cannot make sense of it only logs. -/
def handleWorkerParts (s : Sys κ) (parts : List String) : Sys κ :=
  match s.pool.decodeWorkerMessage parts with
  | none => s
  | some (w, cmd) =>
    match s.pool.runInfo w with
    | none => s
    | some run =>
      if cmd = "RAN" then s.workerRan w run
      else if cmd = "QUITTING" then
        { s with pool := s.pool.modifyRun (fun r => { r with joinable := false }) w }
      else s

/-- The next message of a worker, taken apart and put together again. -/
theorem handleWorkerParts_eq {s s' : Sys κ} {w : Worker} (hid : w.id < 2 ^ 32)
    (h : s.proxyWorkerMessage w = some s') :
    ∃ reply rest, (s.threads w).outbox = reply :: rest ∧
      s' = (s.takeReply w rest).handleWorkerParts [w.routingId, reply.text] := by
  rw [proxyWorkerMessage] at h
  split at h
  · rename_i run reply rest hrun houtbox
    have hdecode : (s.takeReply w rest).pool.decodeWorkerMessage [w.routingId, reply.text] =
        some (w, reply.text) := Pool.decodeWorkerMessage_routingId hid (by
      show (s.pool.runInfo w).isSome = true
      rw [hrun]
      rfl) _
    have hrun' : (s.takeReply w rest).pool.runInfo w = some run := hrun
    refine ⟨reply, rest, houtbox, ?_⟩
    rw [handleWorkerParts, hdecode]
    dsimp only
    rw [hrun']
    cases reply with
    | ran => exact (Option.some.inj h).symm
    | quitting => exact (Option.some.inj h).symm
  · cases h

omit [DecidableEq κ] in
/-- The number of a worker that the proxy has a record of is a `uint32_t`. -/
theorem id_lt {s : Sys κ} (hworkers : s.pool.workers.length ≤ 2 ^ 32)
    (htagged : s.pool.taggedWorkers.length < 2 ^ 32) {w : Worker}
    (hrun : (s.pool.runInfo w).isSome = true) : w.id < 2 ^ 32 := by
  cases w with
  | untagged i => exact (Pool.isSome_runInfo_untagged.1 hrun).trans_le hworkers
  | tagged t =>
    have ht := Pool.isSome_runInfo_tagged.1 hrun
    rw [Worker.id]
    omega

/-- **The proxy takes messages for what the workers mean, and for nothing else.**  A message that
has any effect is a `RAN` or a `QUITTING` with the address of a worker that the proxy has a record
of; no two of them have the same address; and what such a worker says has the effect that it should.
-/
theorem worker_messages_exact {s : Sys κ} (hworkers : s.pool.workers.length ≤ 2 ^ 32)
    (htagged : s.pool.taggedWorkers.length < 2 ^ 32) :
    (∀ parts, (∀ part ∈ parts, ∀ c ∈ part.toList, c.toNat < 256) → s.handleWorkerParts parts ≠ s →
      ∃ (w : Worker) (reply : WorkerReply), parts = [w.routingId, reply.text] ∧
        (s.pool.runInfo w).isSome = true) ∧
    (∀ v w, (s.pool.runInfo v).isSome = true → (s.pool.runInfo w).isSome = true →
      v.routingId = w.routingId → v = w) ∧
    ∀ (w : Worker) (reply : WorkerReply) (rest : List WorkerReply),
      (s.pool.runInfo w).isSome = true → (s.threads w).outbox = reply :: rest →
      s.proxyWorkerMessage w =
        some ((s.takeReply w rest).handleWorkerParts [w.routingId, reply.text]) := by
  refine ⟨fun parts hbytes hne => ?_, fun v w hv hw => ?_, fun w reply rest hrun houtbox => ?_⟩
  · unfold handleWorkerParts at hne
    split at hne
    · exact absurd rfl hne
    · rename_i w cmd hdecode
      obtain ⟨rfl, hsome⟩ := Pool.of_decodeWorkerMessage hbytes hdecode
      obtain ⟨run, hrun⟩ := Option.isSome_iff_exists.1 hsome
      rw [hrun] at hne
      dsimp only at hne
      split at hne
      · rename_i hcmd
        exact ⟨w, .ran, by rw [hcmd]; rfl, hsome⟩
      · split at hne
        · rename_i hcmd
          exact ⟨w, .quitting, by rw [hcmd]; rfl, hsome⟩
        · exact absurd rfl hne
  · exact Worker.routingId_injective (id_lt hworkers htagged hv) (id_lt hworkers htagged hw)
  · obtain ⟨run, hrun'⟩ := Option.isSome_iff_exists.1 hrun
    obtain ⟨s', hs'⟩ : ∃ s', s.proxyWorkerMessage w = some s' := by
      rw [proxyWorkerMessage, hrun', houtbox]
      cases reply <;> exact ⟨_, rfl⟩
    obtain ⟨reply', rest', houtbox', rfl⟩ := handleWorkerParts_eq (id_lt hworkers htagged hrun) hs'
    rw [houtbox] at houtbox'
    cases houtbox'
    exact hs'

/-- A pool with one worker, which has just returned from an injected task. -/
def returned : Sys Unit where
  pool :=
    { workers := [{ isInjected := true, cat := some (), joinable := true }]
      idleWorkers := [0]
      taggedWorkers := []
      activeThreads := fun _ => 1
      maxWorkers := 1 }
  threads := fun _ => { status := .waiting, outbox := [.ran] }
  outstanding := fun _ => 1
  sent := fun _ => [.start]

theorem worker_messages_exact_returned :
    returned.pool.workers.length ≤ 2 ^ 32 ∧ returned.pool.taggedWorkers.length < 2 ^ 32 ∧
      returned.proxyWorkerMessage (.untagged 0) =
        some ((returned.takeReply (.untagged 0) []).handleWorkerParts
          [(Worker.untagged 0).routingId, "RAN"]) :=
  ⟨by decide, by decide,
    (worker_messages_exact (by decide) (by decide)).2.2 (.untagged 0) .ran [] rfl rfl⟩

end Sys

end OxenMQ
