import OxenMQ.Connections.Incoming
import OxenMQ.Lib.Transition
import Mathlib.Data.List.TakeDrop
import Mathlib.Data.List.TakeWhile

/-!
# Categories, commands and aliases

Before `start()` the application registers what it wants to be called for: categories, the commands
in them, and other names for commands.  This file has the four functions that do it, each of them
with all of its checks, and connects the result with the `Config` that the proxy thread works with
(`Registry.config`), in which `Config.getCommand` looks up what a message asks for.

An exception does not undo anything, so a call returns a `Registry` also if it throws; that it is
then the old one is a result (`Registry.exec_cases`) and not a matter of how the calls are written
down.

The two sides treat names differently.  Registration gets a category and a name, and puts them
together for the comparison with the aliases.  Lookup gets one text and cuts it at the first dot,
and so does `add_command_alias` for the comparison with the commands.  Names of commands may be
empty and may have dots in them, names of categories may not, which is why the cut undoes the
composition (`splitCommand_fullname`).
-/

set_option autoImplicit false

namespace OxenMQ

open Config

/-- `category`, without the counters that only the proxy thread uses. -/
structure Category where
  access : Access
  reservedThreads : ℕ
  maxQueue : ℤ
  commands : AList fun _ : String => Command := ∅

structure Registry where
  categories : AList fun _ : String => Category := ∅
  commandAliases : AList fun _ : String => String := ∅
  /-- `proxy_thread.joinable()`. -/
  started : Bool := false

namespace Registry

inductive Error where
  | logic (what : String)
  | runtime (what : String)
  /-- From `at`. -/
  | outOfRange
  deriving DecidableEq, Repr

/-- How a call ends, and what it leaves behind. -/
abbrev Outcome := Except Error Unit × Registry

variable {r r' : Registry} {category name aliasName target : String} {command : Command}

/-! ## The calls -/

/-- What `check_not_started` throws. -/
def startedError (verb : String) : Error := .logic ("Cannot " ++ verb ++ " after calling `start()`")

def setCategory (r : Registry) (name : String) (cat : Category) : Registry :=
  { r with categories := r.categories.insert name cat }

def addCategory (r : Registry) (name : String) (access : Access) (reservedThreads : ℕ)
    (maxQueue : ℤ) : Outcome :=
  if r.started then (.error (startedError "add a category"), r)
  else if name.length > maxCategoryLength then
    (.error (.runtime ("Invalid category name `" ++ name ++ "': name too long (> " ++
      toString maxCategoryLength ++ ")")), r)
  else if name = "" ∨ '.' ∈ name.toList then
    (.error (.runtime ("Invalid category name `" ++ name ++ "'")), r)
  else if name ∈ r.categories then
    (.error (.runtime ("Unable to add category `" ++ name ++ "': that category already exists")), r)
  else
    (.ok (), r.setCategory name { access, reservedThreads, maxQueue })

/-- A command in one of the categories. -/
def setCommand (r : Registry) (category : String) (cat : Category) (name : String)
    (command : Command) : Registry :=
  r.setCategory category { cat with commands := cat.commands.insert name command }

/-- A command as it is asked for in a message. -/
def fullname (category name : String) : String := category ++ "." ++ name

def addCommand (r : Registry) (category name : String) (callback : Callback) : Outcome :=
  if r.started then (.error (startedError "add a command"), r)
  else if name.length > maxCommandLength then
    (.error (.runtime ("Invalid command name `" ++ name ++ "': name too long (> " ++
      toString maxCommandLength ++ ")")), r)
  else
    match r.categories.lookup category with
    | none =>
      (.error (.runtime ("Cannot add a command to unknown category `" ++ category ++ "'")), r)
    | some cat =>
      if fullname category name ∈ r.commandAliases then
        (.error (.runtime ("Cannot add command `" ++ fullname category name ++
          "': a command alias with that name is already defined")), r)
      else if name ∈ cat.commands then
        -- `insert` keeps what is there
        (.error (.runtime ("Cannot add command `" ++ fullname category name ++
          "': that command already exists")), r)
      else (.ok (), r.setCommand category cat name ⟨callback, false⟩)

/-- A command is added, and then made a request command. -/
def addRequestCommand (r : Registry) (category name : String) (callback : Callback) : Outcome :=
  match r.addCommand category name callback with
  | (.error e, r) => (.error e, r)
  | (.ok (), r) =>
    match r.categories.lookup category with
    | none => (.error .outOfRange, r)
    | some cat =>
      match cat.commands.lookup name with
      | none => (.error .outOfRange, r)
      | some command => (.ok (), r.setCommand category cat name { command with isRequest := true })

def addCommandAlias (r : Registry) (aliasName target : String) : Outcome :=
  if r.started then (.error (startedError "add a command alias"), r)
  else if aliasName = "" then (.error (.runtime "Cannot add an alias for empty command"), r)
  else if aliasName.toList.head? = some '.' then
    (.error (.runtime ("Invalid command alias `" ++ aliasName ++ "'")), r)
  else if target.toList.head? = some '.' ∨ '.' ∉ target.toList then
    (.error (.runtime ("Invalid command alias target `" ++ target ++ "'")), r)
  else if '.' ∈ aliasName.toList ∧ ∃ cat ∈ r.categories.lookup (splitCommand aliasName).1,
      (splitCommand aliasName).2 ∈ cat.commands then
    (.error (.runtime ("Invalid command alias: `" ++ aliasName ++ "' would mask an existing command")), r)
  else if aliasName ∈ r.commandAliases then
    (.error (.runtime ("Cannot add command alias `" ++ aliasName ++ "': that alias already exists")), r)
  else (.ok (), { r with commandAliases := r.commandAliases.insert aliasName target })

/-- The calls that an application makes while it sets things up. -/
inductive Call where
  | addCategory (name : String) (access : Access) (reservedThreads : ℕ) (maxQueue : ℤ)
  | addCommand (category name : String) (callback : Callback)
  | addRequestCommand (category name : String) (callback : Callback)
  | addCommandAlias (aliasName target : String)
  /-- The thread of the proxy is there. -/
  | start

def exec (r : Registry) : Call → Outcome
  | .addCategory name access reservedThreads maxQueue =>
    r.addCategory name access reservedThreads maxQueue
  | .addCommand category name callback => r.addCommand category name callback
  | .addRequestCommand category name callback => r.addRequestCommand category name callback
  | .addCommandAlias aliasName target => r.addCommandAlias aliasName target
  | .start => (.ok (), { r with started := true })

def step (r : Registry) (call : Call) : Option Registry := some (r.exec call).2

/-! ## What has been registered -/

/-- The command with a name, in a category. -/
def command? (r : Registry) (category name : String) : Option Command :=
  (r.categories.lookup category).bind fun cat => cat.commands.lookup name

/-- What the proxy thread works with.  A category is represented by its name. -/
def config (r : Registry) (pubkey : String) (localServiceNode : Bool) (fromHex : String → String) :
    Config String where
  pubkey := pubkey
  localServiceNode := localServiceNode
  categories name := if name ∈ r.categories then some name else none
  access name := (r.categories.lookup name).elim {} Category.access
  commands := r.command?
  commandAliases aliasName := r.commandAliases.lookup aliasName
  fromHex := fromHex

theorem toList_fullname (category name : String) :
    (fullname category name).toList = category.toList ++ '.' :: name.toList := by
  rw [fullname, String.toList_append, String.toList_append, List.append_assoc]
  rfl

theorem length_fullname (category name : String) :
    (fullname category name).length = category.length + 1 + name.length := by
  rw [fullname, String.length_append, String.length_append]
  rfl

/-- The cut at the first dot finds the category and the name. -/
theorem splitCommand_fullname (h : '.' ∉ category.toList) :
    splitCommand (fullname category name) = (category, name) := by
  have hne : ∀ c ∈ category.toList, decide (c ≠ '.') = true := fun c hc =>
    decide_eq_true (ne_of_mem_of_not_mem hc h)
  rw [splitCommand, toList_fullname, List.span_eq_takeWhile_dropWhile,
    List.takeWhile_append_of_pos hne, List.dropWhile_append_of_pos hne]
  simp

/-- A text with a dot in it is a category and a name. -/
theorem fullname_splitCommand {text : String} (h : '.' ∈ text.toList) :
    fullname (splitCommand text).1 (splitCommand text).2 = text ∧
      '.' ∉ (splitCommand text).1.toList := by
  rw [splitCommand, List.span_eq_takeWhile_dropWhile]
  have htext := List.takeWhile_append_dropWhile (p := fun c => decide (c ≠ '.')) (l := text.toList)
  have hdot : '.' ∉ text.toList.takeWhile fun c => decide (c ≠ '.') := fun hmem => by
    simpa using List.mem_takeWhile_imp hmem
  refine ⟨String.toList_inj.1 ?_, by rwa [String.toList_ofList]⟩
  rw [toList_fullname, String.toList_ofList, String.toList_ofList]
  rcases hrest : text.toList.dropWhile fun c => decide (c ≠ '.') with _ | ⟨c, rest⟩
  · rw [hrest, List.append_nil] at htext
    rw [← htext] at h
    exact absurd h hdot
  · have hstop := List.head?_dropWhile_not (fun c => decide (c ≠ '.')) text.toList
    rw [hrest] at hstop
    obtain rfl : c = '.' := by simpa using hstop
    rw [hrest] at htext
    exact htext

/-! ## What a call does -/

/-- What a call adds if it does not throw. -/
inductive Adds (r : Registry) : Call → Registry → Prop
  | category {name : String} {access : Access} {reservedThreads : ℕ} {maxQueue : ℤ}
      (hlen : name.length ≤ maxCategoryLength) (hne : name ≠ "") (hdot : '.' ∉ name.toList)
      (hnew : name ∉ r.categories) :
    Adds r (.addCategory name access reservedThreads maxQueue)
      (r.setCategory name { access, reservedThreads, maxQueue })
  | command {category name : String} {callback : Callback} {cat : Category}
      (hcat : r.categories.lookup category = some cat) (hlen : name.length ≤ maxCommandLength)
      (halias : fullname category name ∉ r.commandAliases) (hnew : name ∉ cat.commands) :
    Adds r (.addCommand category name callback) (r.setCommand category cat name ⟨callback, false⟩)
  | requestCommand {category name : String} {callback : Callback} {cat : Category}
      (hcat : r.categories.lookup category = some cat) (hlen : name.length ≤ maxCommandLength)
      (halias : fullname category name ∉ r.commandAliases) (hnew : name ∉ cat.commands) :
    Adds r (.addRequestCommand category name callback)
      (r.setCommand category cat name ⟨callback, true⟩)
  | commandAlias {aliasName target : String}
      (htarget : '.' ∈ target.toList ∧ target.toList.head? ≠ some '.')
      (hmask : '.' ∈ aliasName.toList →
        r.command? (splitCommand aliasName).1 (splitCommand aliasName).2 = none)
      (hnew : aliasName ∉ r.commandAliases) :
    Adds r (.addCommandAlias aliasName target)
      { r with commandAliases := r.commandAliases.insert aliasName target }
  | start : Adds r .start { r with started := true }

theorem addCommand_cases (r : Registry) (category name : String) (callback : Callback) :
    (∃ e, r.addCommand category name callback = (.error e, r)) ∨
      ∃ cat, r.categories.lookup category = some cat ∧ name.length ≤ maxCommandLength ∧
        fullname category name ∉ r.commandAliases ∧ name ∉ cat.commands ∧
        r.addCommand category name callback =
          (.ok (), r.setCommand category cat name ⟨callback, false⟩) := by
  rw [addCommand]
  split
  · exact .inl ⟨_, rfl⟩
  split
  · exact .inl ⟨_, rfl⟩
  rename_i hlen
  split
  · exact .inl ⟨_, rfl⟩
  rename_i cat hcat
  split
  · exact .inl ⟨_, rfl⟩
  rename_i halias
  split
  · exact .inl ⟨_, rfl⟩
  rename_i hnew
  exact .inr ⟨cat, hcat, not_lt.1 hlen, halias, hnew, rfl⟩

/-- A call that throws changes nothing. -/
theorem exec_cases (r : Registry) (call : Call) :
    (∃ e, r.exec call = (.error e, r)) ∨ ∃ r', r.exec call = (.ok (), r') ∧ Adds r call r' := by
  cases call with
  | addCategory name access reservedThreads maxQueue =>
    rw [exec, addCategory]
    split
    · exact .inl ⟨_, rfl⟩
    split
    · exact .inl ⟨_, rfl⟩
    rename_i hlen
    split
    · exact .inl ⟨_, rfl⟩
    rename_i hname
    rw [not_or] at hname
    split
    · exact .inl ⟨_, rfl⟩
    rename_i hnew
    exact .inr ⟨_, rfl, .category (not_lt.1 hlen) hname.1 hname.2 hnew⟩
  | addCommand category name callback =>
    rcases r.addCommand_cases category name callback with
      ⟨e, he⟩ | ⟨cat, hcat, hlen, halias, hnew, h⟩
    · exact .inl ⟨e, he⟩
    · exact .inr ⟨_, h, .command hcat hlen halias hnew⟩
  | addRequestCommand category name callback =>
    rw [exec, addRequestCommand]
    rcases r.addCommand_cases category name callback with
      ⟨e, he⟩ | ⟨cat, hcat, hlen, halias, hnew, h⟩
    · rw [he]
      exact .inl ⟨e, rfl⟩
    · have hset : (r.setCommand category cat name ⟨callback, false⟩).categories.lookup category =
          some { cat with commands := cat.commands.insert name ⟨callback, false⟩ } :=
        AList.lookup_insert _
      have hinsert :
          (cat.commands.insert name ⟨callback, false⟩).lookup name = some ⟨callback, false⟩ :=
        AList.lookup_insert _
      rw [h]
      simp only [hset, hinsert]
      refine .inr ⟨_, rfl, ?_⟩
      simp only [setCommand, setCategory, AList.insert_insert]
      exact .requestCommand hcat hlen halias hnew
  | addCommandAlias aliasName target =>
    rw [exec, addCommandAlias]
    split
    · exact .inl ⟨_, rfl⟩
    split
    · exact .inl ⟨_, rfl⟩
    split
    · exact .inl ⟨_, rfl⟩
    split
    · exact .inl ⟨_, rfl⟩
    rename_i htarget
    rw [not_or, not_not] at htarget
    split
    · exact .inl ⟨_, rfl⟩
    rename_i hmask
    split
    · exact .inl ⟨_, rfl⟩
    rename_i hnew
    refine .inr ⟨_, rfl, .commandAlias htarget.symm (fun hdot => ?_) hnew⟩
    rw [command?, Option.bind_eq_none_iff]
    exact fun cat hcat => AList.lookup_eq_none.2 fun hmem => hmask ⟨hdot, cat, hcat, hmem⟩
  | start => exact .inr ⟨_, rfl, .start⟩

/-! ## What holds after any calls -/

theorem command?_setCommand {cat : Category} (hcat : r.categories.lookup category = some cat)
    (category' name' : String) : (r.setCommand category cat name command).command? category' name' =
      if category' = category ∧ name' = name then some command else r.command? category' name' := by
  by_cases hc : category' = category
  · subst hc
    rw [command?, setCommand, setCategory, AList.lookup_insert, Option.bind_some, command?, hcat,
      Option.bind_some]
    by_cases hn : name' = name
    · subst hn
      rw [AList.lookup_insert, if_pos ⟨rfl, rfl⟩]
    · rw [AList.lookup_insert_ne hn, if_neg fun h => hn h.2]
  · rw [command?, setCommand, setCategory, AList.lookup_insert_ne hc, if_neg fun h => hc h.1,
      command?]

/-- There is nothing in a new category. -/
theorem command?_setCategory (hnew : category ∉ r.categories) (access : Access)
    (reservedThreads : ℕ) (maxQueue : ℤ) (category' name' : String) :
    (r.setCategory category { access, reservedThreads, maxQueue }).command? category' name' =
      r.command? category' name' := by
  by_cases hc : category' = category
  · subst hc
    rw [command?, command?, setCategory, AList.lookup_insert, AList.lookup_eq_none.2 hnew]
    exact AList.lookup_empty name'
  · rw [command?, setCategory, AList.lookup_insert_ne hc, command?]

/-- A new command comes to the ones that are there. -/
theorem command?_setCommand_eq_some {cat : Category}
    (hcat : r.categories.lookup category = some cat)
    (hnew : name ∉ cat.commands) {category' name' : String} {command' : Command} :
    (r.setCommand category cat name command).command? category' name' = some command' ↔
      r.command? category' name' = some command' ∨
        some (category, name, command) = some (category', name', command') := by
  have hnone : r.command? category name = none := by
    rw [command?, hcat]
    exact AList.lookup_eq_none.2 hnew
  rw [command?_setCommand hcat, Option.some.injEq, Prod.mk.injEq, Prod.mk.injEq]
  split
  · rename_i heq
    obtain ⟨rfl, rfl⟩ := heq
    rw [hnone, Option.some.injEq]
    exact ⟨fun h => .inr ⟨rfl, rfl, h⟩, fun h => (h.resolve_left nofun).2.2⟩
  · rename_i hne
    exact ⟨.inl, fun h => h.resolve_right fun heq => hne ⟨heq.1.symm, heq.2.1.symm⟩⟩

/-- The command that a call registers. -/
def Call.registers : Call → Option (String × String × Command)
  | .addCommand category name callback => some (category, name, ⟨callback, false⟩)
  | .addRequestCommand category name callback => some (category, name, ⟨callback, true⟩)
  | _ => none

theorem Adds.command? {call : Call} (h : Adds r call r') :
    r'.command? category name = some command ↔
      r.command? category name = some command ∨
        call.registers = some (category, name, command) := by
  cases h with
  | category hlen hne hdot hnew =>
    rw [command?_setCategory hnew]
    exact ⟨.inl, fun h => h.resolve_right nofun⟩
  | command hcat _ _ hnew => exact command?_setCommand_eq_some hcat hnew
  | requestCommand hcat _ _ hnew => exact command?_setCommand_eq_some hcat hnew
  | commandAlias => exact ⟨.inl, fun h => h.resolve_right nofun⟩
  | start => exact ⟨.inl, fun h => h.resolve_right nofun⟩

/-- What the checks are for. -/
structure Valid (r : Registry) : Prop where
  category : ∀ name ∈ r.categories,
    name.length ≤ maxCategoryLength ∧ name ≠ "" ∧ '.' ∉ name.toList
  command : ∀ category name command, r.command? category name = some command →
    name.length ≤ maxCommandLength ∧ fullname category name ∉ r.commandAliases

theorem mem_categories (h : r.command? category name = some command) : category ∈ r.categories := by
  obtain ⟨cat, hcat, _⟩ := Option.bind_eq_some_iff.1 h
  exact AList.lookup_isSome.1 (Option.isSome_of_eq_some hcat)

/-- A command keeps the registry valid if it is the only thing that is new. -/
theorem Valid.setCommand {cat : Category} (hr : r.Valid)
    (hcat : r.categories.lookup category = some cat) (hlen : name.length ≤ maxCommandLength)
    (halias : fullname category name ∉ r.commandAliases) (hnew : name ∉ cat.commands) :
    (r.setCommand category cat name command).Valid where
  category name' hname' := by
    rcases (AList.mem_insert _).1 hname' with rfl | hname'
    · exact hr.category _ (AList.lookup_isSome.1 (Option.isSome_of_eq_some hcat))
    · exact hr.category name' hname'
  command category' name' command' h := by
    rcases (command?_setCommand_eq_some hcat hnew).1 h with h | h
    · exact hr.command category' name' command' h
    · cases h
      exact ⟨hlen, halias⟩

theorem Adds.valid {call : Call} (h : Adds r call r') (hr : r.Valid) : r'.Valid := by
  cases h with
  | category hlen hne hdot hnew =>
    refine ⟨fun name hname => ?_, fun category name command hc => ?_⟩
    · rcases (AList.mem_insert _).1 hname with rfl | hname
      · exact ⟨hlen, hne, hdot⟩
      · exact hr.category name hname
    · rw [command?_setCategory hnew] at hc
      exact hr.command category name command hc
  | command hcat hlen halias hnew => exact hr.setCommand hcat hlen halias hnew
  | requestCommand hcat hlen halias hnew => exact hr.setCommand hcat hlen halias hnew
  | commandAlias htarget hmask hnew =>
    refine ⟨hr.category, fun category name command hc => ?_⟩
    obtain ⟨hlen, halias⟩ := hr.command category name command hc
    refine ⟨hlen, fun hmem => ?_⟩
    rcases (AList.mem_insert _).1 hmem with rfl | hmem
    · -- the alias has been compared with this very command
      have hdot : '.' ∉ category.toList := (hr.category category (mem_categories hc)).2.2
      rw [splitCommand_fullname hdot, toList_fullname] at hmask
      cases (hmask (by simp)).symm.trans hc
    · exact halias hmem
  | start => exact ⟨hr.category, hr.command⟩

/-! ## Lookup -/

variable {pubkey : String} {localServiceNode : Bool} {fromHex : String → String}

/-- The command that a text names, aliases apart. -/
def denotes (r : Registry) (text : String) : Option (String × Command) :=
  if '.' ∉ text.toList ∨ text.toList.head? = some '.' then none
  else
    let (category, name) := splitCommand text
    (r.command? category name).map fun command => (category, command)

theorem denotes_eq_some (hr : r.Valid) {text : String} : r.denotes text = some (category, command) ↔
    ∃ name, text = fullname category name ∧ r.command? category name = some command := by
  constructor
  · intro h
    rw [denotes] at h
    split at h
    · cases h
    · rename_i hdot
      rw [not_or, not_not] at hdot
      obtain ⟨command', hcommand, heq⟩ := Option.map_eq_some_iff.1 h
      cases heq
      exact ⟨(splitCommand text).2, (fullname_splitCommand hdot.1).1.symm, hcommand⟩
  · rintro ⟨name, rfl, hcommand⟩
    obtain ⟨_, hne, hdot⟩ := hr.category category (mem_categories hcommand)
    have hhead : (fullname category name).toList.head? ≠ some '.' := by
      obtain ⟨c, cs, hcs⟩ := List.exists_cons_of_ne_nil (mt String.toList_eq_nil_iff.1 hne)
      rw [hcs, List.mem_cons, not_or] at hdot
      rw [toList_fullname, hcs]
      exact fun h => hdot.1 (Option.some.inj h).symm
    rw [denotes, if_neg (not_or.2 ⟨not_not.2 (by simp [toList_fullname]), hhead⟩),
      splitCommand_fullname hdot]
    exact Option.map_eq_some_iff.2 ⟨command, hcommand, rfl⟩

/-- `get_command` rewrites the text once, and looks up the result. -/
theorem getCommand_config {text : String}
    (hlen : text.length ≤ maxCategoryLength + 1 + maxCommandLength) :
    (r.config pubkey localServiceNode fromHex).getCommand text =
      ((r.commandAliases.lookup text).getD text,
        r.denotes ((r.commandAliases.lookup text).getD text)) := by
  rw [getCommand, if_neg (not_lt.2 hlen), denotes]
  dsimp only [config]
  split
  · rfl
  · by_cases hcat : (splitCommand ((r.commandAliases.lookup text).getD text)).1 ∈ r.categories
    · rw [if_pos hcat]
    · have hnone : ∀ name, r.command? _ name = none := fun name =>
        congrArg (Option.bind · _) (AList.lookup_eq_none.2 hcat)
      rw [if_neg hcat, hnone]
      rfl

theorem valid_run {calls : List Call} (h : Transition.run step {} calls = some r) : r.Valid := by
  refine Transition.run_induction (P := Valid) ⟨?_, ?_⟩ (fun _ s call s' _ hs hstep => ?_) h
  · exact fun name hname => absurd hname (AList.notMem_empty name)
  · intro category name command h
    cases (congrArg (Option.bind · _) (AList.lookup_empty category)).symm.trans h
  · cases hstep
    rcases s.exec_cases call with ⟨e, he⟩ | ⟨s', hexec, hadds⟩
    · rw [he]
      exact hs
    · rw [hexec]
      exact hadds.valid hs

theorem command?_run {calls : List Call} (h : Transition.run step {} calls = some r) :
    r.command? category name = some command ↔
      Transition.Happened step {} calls fun s call _ =>
        call.registers = some (category, name, command) ∧ (s.exec call).1 = .ok () := by
  refine Transition.run_induction_history (P := fun calls r =>
    r.command? category name = some command ↔ Transition.Happened step {} calls fun s call _ =>
      call.registers = some (category, name, command) ∧ (s.exec call).1 = .ok ()) ?_
    (fun calls s call s' hrun ih hstep => ?_) h
  · refine ⟨fun h => ?_, fun h => absurd h Transition.not_happened_nil⟩
    cases (congrArg (Option.bind · _) (AList.lookup_empty category)).symm.trans h
  · rw [Transition.happened_snoc hrun hstep, ← ih]
    cases hstep
    rcases s.exec_cases call with ⟨e, he⟩ | ⟨s', hexec, hadds⟩
    · rw [he]
      exact ⟨.inl, fun h => h.resolve_right fun hbad => nomatch hbad.2⟩
    · rw [hexec, hadds.command?]
      exact or_congr_right ⟨fun h => ⟨h, rfl⟩, And.left⟩

/-- **Registration and lookup agree.** -/
theorem lookup_agrees (pubkey : String) (localServiceNode : Bool) (fromHex : String → String)
    {calls : List Call} {r : Registry} (h : Transition.run step {} calls = some r) :
    (∀ call e, (r.exec call).1 = .error e → (r.exec call).2 = r) ∧
    (∀ category name command, r.command? category name = some command ↔
      Transition.Happened step {} calls fun s call _ =>
        call.registers = some (category, name, command) ∧ (s.exec call).1 = .ok ()) ∧
    (∀ category name command, r.command? category name = some command →
      fullname category name ∉ r.commandAliases ∧
      (r.config pubkey localServiceNode fromHex).getCommand (fullname category name) =
        (fullname category name, some (category, command))) ∧
    ∀ aliasName target, r.commandAliases.lookup aliasName = some target →
      aliasName.length ≤ maxCategoryLength + 1 + maxCommandLength →
      ((r.config pubkey localServiceNode fromHex).getCommand aliasName).1 = target ∧
      ∀ category command,
        ((r.config pubkey localServiceNode fromHex).getCommand aliasName).2 =
          some (category, command) ↔
          ∃ name, target = fullname category name ∧ r.command? category name = some command := by
  have hr := valid_run h
  refine ⟨fun call e he => ?_, fun _ _ _ => command?_run h,
    fun category name command hcommand => ?_, fun aliasName target htarget hlen => ?_⟩
  · rcases r.exec_cases call with ⟨_, hexec⟩ | ⟨_, hexec, _⟩
    · rw [hexec]
    · rw [hexec] at he
      cases he
  · obtain ⟨hlen, halias⟩ := hr.command category name command hcommand
    have hcat := (hr.category category (mem_categories hcommand)).1
    refine ⟨halias, ?_⟩
    rw [getCommand_config (by rw [length_fullname]; omega), AList.lookup_eq_none.2 halias,
      Option.getD_none, (denotes_eq_some hr).2 ⟨name, rfl, hcommand⟩]
  · rw [getCommand_config hlen, htarget, Option.getD_some]
    exact ⟨rfl, fun category command => denotes_eq_some hr⟩

/-- An alias for an alias, and an alias that would mask a command, which is refused. -/
def chainCalls : List Call :=
  [.addCategory "a" {} 0 200, .addRequestCommand "a" "b.c" 1, .addCommandAlias "x" "y.z",
    .addCommandAlias "y.z" "a.b.c", .addCommandAlias "a.b.c" "y.z"]

theorem lookup_agrees_chainCalls : ∃ r, Transition.run step {} chainCalls = some r ∧
    r.command? "a" "b.c" = some ⟨1, true⟩ ∧ "a.b.c" ∉ r.commandAliases ∧
    (r.config "" false id).getCommand "a.b.c" = ("a.b.c", some ("a", ⟨1, true⟩)) ∧
    ((r.config "" false id).getCommand "y.z").2 = some ("a", ⟨1, true⟩) ∧
    ((r.config "" false id).getCommand "x").1 = "y.z" := by
  refine ⟨_, rfl, rfl, ?_⟩
  obtain ⟨_, _, hcommand, halias⟩ := lookup_agrees "" false id
    (show Transition.run step {} chainCalls = some _ from rfl)
  obtain ⟨hfree, hlookup⟩ := hcommand "a" "b.c" ⟨1, true⟩ rfl
  exact ⟨hfree, hlookup,
    ((halias "y.z" "a.b.c" rfl (by decide)).2 "a" ⟨1, true⟩).2 ⟨"b.c", rfl, rfl⟩,
    (halias "x" "y.z" rfl (by decide)).1⟩

end Registry

end OxenMQ
