import Mathlib.Data.List.DropRight
import TreeLint.Proofs.Engine.Independence
import TreeLint.Proofs.Engine.SyntaxErrors
import TreeLint.Session

/-!
# Sessions serve the right engine

A session is called any number of times (`Session.run`), with objects that may share addresses in
any way. The values of the objects stay as they are.

* `Sound` — the invariant: the cache is within its limit, an entry is filed under the address of its
  object, and the engine in it reads this object and was set up by its value;
* `Sound.run` — it holds along every run, so that the engine for an object is one of its own
  (`Sound.serves_engineFor`);
* `keys_run` — as long as no object shares its address with another one in the cache, the cache
  holds the last sixteen engines that were made (`constructed`), in the order of making. An address
  may be used again after its object has left the cache;
* `result_analyze_ready` — an engine that has been used finds what a new one finds.

The main statement is `run_correct`.
-/

namespace TreeLint

/-! ### Engines that have been used -/

/-- Parsing changes nothing in a frontend but the parsers that are ready. -/
theorem Frontend.exists_parse_snd_eq (f : Frontend) (kind : FileKind) (answer : ParserAnswer) :
    ∃ ready, (f.parse kind answer).2 = { f with ready } := by
  unfold parse prepare
  split
  · exact ⟨f.ready, rfl⟩
  · rename_i f' hf
    split at hf
    · cases hf
      exact ⟨f.ready, rfl⟩
    · split at hf <;> cases hf
      exact ⟨_, rfl⟩

namespace Engine

/-- A call changes nothing in an engine but the parsers that are ready. -/
theorem exists_analyze_snd_eq (c d : Config) (ready : List FileKind) (text : Text)
    (name : Option String) (answer : ParserAnswer) :
    ∃ ready', ((builtInFor c ready).analyze d text name answer).2 = builtInFor c ready' := by
  unfold analyze
  split
  · exact ⟨ready, rfl⟩
  · rename_i kind _
    split
    · exact ⟨ready, rfl⟩
    · obtain ⟨ready', hready⟩ := (builtInFor c ready).frontend.exists_parse_snd_eq kind answer
      refine ⟨ready', ?_⟩
      generalize (builtInFor c ready).frontend.parse kind answer = parsed at hready
      obtain ⟨root, frontend⟩ := parsed
      cases hready
      cases root <;> rfl

/-- **An engine that has been used finds what a new one finds.** -/
theorem result_analyze_ready (c d : Config) (ready ready' : List FileKind) (text : Text)
    (name : Option String) (answer : ParserAnswer) :
    ((builtInFor c ready).analyze d text name answer).1.result =
      ((builtInFor c ready').analyze d text name answer).1.result := by
  cases hk : FileKind.ofName name with
  | error err =>
    unfold analyze
    simp only [hk]
  | ok kind =>
    have hrules : (builtInFor c ready').rulesFor d kind = (builtInFor c ready).rulesFor d kind :=
      rfl
    cases hr : (builtInFor c ready).rulesFor d kind with
    | error err =>
      unfold analyze
      simp only [hk, hrules, hr]
    | ok rules =>
      have hroot : ∀ root, ((builtInFor c ready).frontend.parse kind answer).1 = .ok root ↔
          ((builtInFor c ready').frontend.parse kind answer).1 = .ok root := by
        intro root
        rw [Frontend.parse_eq_ok_iff, Frontend.parse_eq_ok_iff]
        exact Iff.of_eq (congrArg (· = Except.ok root) (Frontend.accept_congr rfl answer))
      rw [analyze_fst_eq text hk hr, analyze_fst_eq text hk (hrules.trans hr)]
      cases hp : ((builtInFor c ready).frontend.parse kind answer).1 with
      | ok root => rw [(hroot root).1 hp]
      | error err =>
        cases hp' : ((builtInFor c ready').frontend.parse kind answer).1 with
        | ok root =>
          rw [(hroot root).2 hp'] at hp
          cases hp
        | error err' => rfl

theorem result_fix_ready (c d : Config) (ready ready' : List FileKind) (text : Text)
    (name : Option String) (answer : ParserAnswer) :
    ((builtInFor c ready).fix d text name answer).1.result =
      ((builtInFor c ready').fix d text name answer).1.result := by
  have hfix : ∀ r, ((builtInFor c r).fix d text name answer).1.result =
      ((builtInFor c r).analyze d text name answer).1.result >>= applyEdits text :=
    fun _ => Attempt.result_bind _ _
  rw [hfix, hfix, result_analyze_ready c d ready ready']

end Engine

/-! ### The cache -/

/-- What is told of an entry: the number of its engine and its object. -/
def CacheEntry.key (x : CacheEntry) : Nat × Nat := (x.made.serial, x.handle)

namespace Cache

variable {cache : Cache} {entry : CacheEntry} {address handle : Nat}

/-- Where an entry is put: behind all entries if its address is new, and in the place of an entry
with its address otherwise. -/
theorem put_cases (entry : CacheEntry) (cache : Cache) :
    ((∀ x ∈ cache, x.address ≠ entry.address) ∧ put entry cache = cache ++ [entry]) ∨
    ∃ front x back, cache = front ++ x :: back ∧ x.address = entry.address ∧
      put entry cache = front ++ entry :: back := by
  induction cache with
  | nil => exact .inl ⟨by simp, rfl⟩
  | cons y rest ih =>
    by_cases hy : y.address = entry.address
    · exact .inr ⟨[], y, rest, rfl, hy, if_pos hy⟩
    · have hput : put entry (y :: rest) = y :: put entry rest := if_neg hy
      rcases ih with ⟨hnew, hend⟩ | ⟨front, x, back, rfl, hx, hplace⟩
      · refine .inl ⟨List.forall_mem_cons.2 ⟨hy, hnew⟩, ?_⟩
        rw [hput, hend, List.cons_append]
      · refine .inr ⟨y :: front, x, back, rfl, hx, ?_⟩
        rw [hput, hplace, List.cons_append]

theorem put_of_new (h : ∀ x ∈ cache, x.address ≠ entry.address) :
    put entry cache = cache ++ [entry] := by
  rcases put_cases entry cache with ⟨-, hput⟩ | ⟨front, x, back, rfl, hx, -⟩
  · exact hput
  · exact absurd hx (h x (List.mem_append_right _ List.mem_cons_self))

theorem trim_eq_rtake (cache : Cache) : trim cache = cache.rtake limit := rfl

theorem mem_of_mem_trim {x : CacheEntry} (h : x ∈ trim cache) : x ∈ cache :=
  List.mem_of_mem_drop h

theorem eq_or_mem_of_mem_put {x : CacheEntry} (h : x ∈ put entry cache) :
    x = entry ∨ x ∈ cache := by
  rcases put_cases entry cache with ⟨-, hput⟩ | ⟨front, y, back, rfl, -, hput⟩
  · rw [hput] at h
    simp only [List.mem_append, List.mem_singleton] at h
    exact h.symm
  · rw [hput] at h
    simp only [List.mem_append, List.mem_cons] at h ⊢
    tauto

/-- A new entry is among those that are kept. -/
theorem mem_trim_put (h : cache.length ≤ limit) : entry ∈ trim (put entry cache) := by
  rcases put_cases entry cache with ⟨-, hput⟩ | ⟨front, y, back, rfl, -, hput⟩
  · have hle : (cache ++ [entry]).length - limit ≤ cache.length := by
      rw [List.length_append, List.length_singleton, limit]
      omega
    rw [hput, trim, List.drop_append_of_le_length hle]
    exact List.mem_append_right _ List.mem_cons_self
  · have hall : (front ++ entry :: back).length - limit = 0 := by
      simp only [List.length_append, List.length_cons] at h ⊢
      omega
    rw [hput, trim, hall, List.drop_zero]
    exact List.mem_append_right _ List.mem_cons_self

theorem mem_of_find?_eq_some {e : SessionEngine} (h : find? cache address handle = some e) :
    ∃ x ∈ cache, x.address = address ∧ x.handle = handle ∧ x.made = e := by
  unfold find? at h
  split at h
  · rename_i x hx
    split at h
    · rename_i hhandle
      cases h
      exact ⟨x, List.mem_of_find?_eq_some hx, by simpa using List.find?_some hx, hhandle, rfl⟩
    · cases h
  · cases h

/-- Where an address stands for one object only, an object is missed exactly if its address is. -/
theorem find?_eq_none_iff (h : ∀ x ∈ cache, x.address = address → x.handle = handle) :
    find? cache address handle = none ↔ ∀ x ∈ cache, x.address ≠ address := by
  unfold find?
  split
  · rename_i x hx
    have hmem := List.mem_of_find?_eq_some hx
    have haddress : x.address = address := by simpa using List.find?_some hx
    rw [if_pos (h x hmem haddress)]
    exact iff_of_false nofun fun hnone => hnone x hmem haddress
  · rename_i hnone
    refine iff_of_true rfl ?_
    intro x hx
    simpa using List.find?_eq_none.1 hnone x hx

end Cache

/-! ### Runs -/

/-- What a session is asked for. -/
inductive Task where
  | analyze
  | fix

/-- A call: its object, its task, and what the parser answers. -/
structure Call where
  handle : Option Nat
  task : Task
  text : Text
  kind : Option String
  answer : ParserAnswer

namespace Session

variable {address : Nat → Nat} {s : Session} {handle : Option Nat}

/-- The session after a call. -/
def after (address : Nat → Nat) (s : Session) (call : Call) : Session :=
  match call.task with
  | .analyze => (s.analyze address call.handle call.text call.kind call.answer).2
  | .fix => (s.fix address call.handle call.text call.kind call.answer).2

/-- The session after calls. -/
def run (address : Nat → Nat) (s : Session) (calls : List Call) : Session :=
  calls.foldl (after address) s

/-- Both tasks leave the engine behind as an analysis does. -/
theorem after_eq (s : Session) (call : Call) :
    s.after address call =
      let (e, s') := s.engineFor address call.handle
      s'.keep { e with
        engine := (e.engine.analyze (s'.configOf e.owner) call.text call.kind call.answer).2 } := by
  unfold after
  cases call.task <;> rfl

/-! ### The invariant -/

/-- The engines that a session holds. -/
def held (s : Session) : List SessionEngine := s.plain.toList ++ s.cache.map CacheEntry.made

/-- The engine runs the built-in rules and was set up by the value of its object. -/
def Fits (s : Session) (e : SessionEngine) : Prop :=
  ∃ ready, e.engine = Engine.builtInFor (s.configOf e.owner) ready

/-- What holds of a session between calls. -/
structure Sound (address : Nat → Nat) (s : Session) : Prop where
  length_le : s.cache.length ≤ Cache.limit
  plain_owner : ∀ e, s.plain = some e → e.owner = none
  entry_address : ∀ x ∈ s.cache, x.address = address x.handle
  entry_owner : ∀ x ∈ s.cache, x.made.owner = some x.handle
  serial_lt : ∀ e ∈ s.held, e.serial < s.made
  /-- The number of an engine tells its object. -/
  owner_eq : ∀ e ∈ s.held, ∀ e' ∈ s.held, e.serial = e'.serial → e.owner = e'.owner
  fits : ∀ e ∈ s.held, s.Fits e

theorem sound_new (address : Nat → Nat) (configs : List Config) :
    Sound address { configs } where
  length_le := Nat.zero_le _
  plain_owner := nofun
  entry_address := nofun
  entry_owner := nofun
  serial_lt := nofun
  owner_eq := nofun
  fits := nofun

theorem mem_held {e : SessionEngine} :
    e ∈ s.held ↔ s.plain = some e ∨ ∃ x ∈ s.cache, x.made = e := by
  rw [held, List.mem_append, Option.mem_toList, List.mem_map]

/-- A session that has made one more engine. What it holds beside that one it held before. -/
theorem Sound.extend {s' : Session} (h : Sound address s) (handle : Option Nat)
    (hmade : s'.made = s.made + 1) (hconfigs : s'.configs = s.configs)
    (hlen : s'.cache.length ≤ Cache.limit)
    (hplain : ∀ e, s'.plain = some e → s.plain = some e ∨ handle = none ∧ e = (s.make handle).1)
    (hcache : ∀ x ∈ s'.cache, x ∈ s.cache ∨
      x.address = address x.handle ∧ handle = some x.handle ∧ x.made = (s.make handle).1) :
    Sound address s' := by
  have hheld : ∀ e ∈ s'.held, e ∈ s.held ∨ e = (s.make handle).1 := by
    intro e he
    rcases mem_held.1 he with he | ⟨x, hx, rfl⟩
    · exact (hplain e he).imp (fun hold => mem_held.2 (.inl hold)) And.right
    · exact (hcache x hx).imp (fun hold => mem_held.2 (.inr ⟨x, hold, rfl⟩)) fun hnew => hnew.2.2
  constructor
  case length_le => exact hlen
  case plain_owner =>
    intro e he
    rcases hplain e he with hold | ⟨hnone, rfl⟩
    · exact h.plain_owner e hold
    · exact hnone
  case entry_address =>
    intro x hx
    rcases hcache x hx with hold | ⟨hnew, -, -⟩
    · exact h.entry_address x hold
    · exact hnew
  case entry_owner =>
    intro x hx
    rcases hcache x hx with hold | ⟨-, hhandle, hnew⟩
    · exact h.entry_owner x hold
    · rw [hnew, ← hhandle]
      rfl
  case serial_lt =>
    intro e he
    rw [hmade]
    rcases hheld e he with hold | rfl
    · exact Nat.lt_succ_of_lt (h.serial_lt e hold)
    · exact Nat.lt_succ_self _
  case owner_eq =>
    -- the number of the new engine is above all others
    intro e he e' he' heq
    rcases hheld e he with hold | rfl
    · rcases hheld e' he' with hold' | rfl
      · exact h.owner_eq e hold e' hold' heq
      · exact absurd heq (h.serial_lt e hold).ne
    · rcases hheld e' he' with hold' | rfl
      · exact absurd heq (h.serial_lt e' hold').ne'
      · rfl
  case fits =>
    intro e he
    have hconfig : s'.configOf e.owner = s.configOf e.owner := by
      rw [configOf, configOf, hconfigs]
    rw [Fits, hconfig]
    rcases hheld e he with hold | rfl
    · exact h.fits e hold
    · exact ⟨[], rfl⟩

/-- What a request for an engine gives: an engine of the object, which the session then holds. -/
structure Serves (address : Nat → Nat) (handle : Option Nat) (e : SessionEngine)
    (s' : Session) : Prop where
  sound : Sound address s'
  mem_held : e ∈ s'.held
  owner_eq : e.owner = handle

/-- The session with one more engine, for calls without a configuration. -/
def withPlain (s : Session) : Session :=
  { s with plain := some (s.make none).1, made := s.made + 1 }

/-- The session with one more engine, for an object. -/
def withEntry (address : Nat → Nat) (s : Session) (handle : Nat) : Session :=
  { s with
    cache := Cache.trim (Cache.put ⟨address handle, handle, (s.make (some handle)).1⟩ s.cache)
    made := s.made + 1 }

theorem engineFor_none (address : Nat → Nat) (s : Session) :
    s.engineFor address none =
      match s.plain with
      | some e => (e, s)
      | none => ((s.make none).1, s.withPlain) := rfl

theorem engineFor_some (address : Nat → Nat) (s : Session) (n : Nat) :
    s.engineFor address (some n) =
      match Cache.find? s.cache (address n) n with
      | some e => (e, s)
      | none => ((s.make (some n)).1, s.withEntry address n) := rfl

/-- **The engine for an object is one of its own**, also where other objects share its address. -/
theorem Sound.serves_engineFor (h : Sound address s) (handle : Option Nat) :
    Serves address handle (s.engineFor address handle).1 (s.engineFor address handle).2 := by
  cases handle with
  | none =>
    rw [engineFor_none]
    cases hplain : s.plain with
    | some e => exact ⟨h, Session.mem_held.2 (.inl hplain), h.plain_owner e hplain⟩
    | none =>
      refine ⟨?_, Session.mem_held.2 (.inl rfl), rfl⟩
      refine h.extend none rfl rfl h.length_le ?_ fun x hx => .inl hx
      intro x hx
      cases hx
      exact .inr ⟨rfl, rfl⟩
  | some n =>
    rw [engineFor_some]
    cases hfind : Cache.find? s.cache (address n) n with
    | some e =>
      obtain ⟨x, hx, -, rfl, rfl⟩ := Cache.mem_of_find?_eq_some hfind
      exact ⟨h, Session.mem_held.2 (.inr ⟨x, hx, rfl⟩), h.entry_owner x hx⟩
    | none =>
      refine ⟨?_, Session.mem_held.2 (.inr ⟨_, Cache.mem_trim_put h.length_le, rfl⟩), rfl⟩
      refine h.extend (some n) rfl rfl (Cache.length_trim_le _) (fun x hx => .inl hx) ?_
      intro x hx
      rcases Cache.eq_or_mem_of_mem_put (Cache.mem_of_mem_trim hx) with rfl | hold
      · exact .inr ⟨rfl, rfl, rfl⟩
      · exact .inl hold

/-! ### Steps and runs -/

/-- An engine, or `e` if it has the same number. -/
def updated (e x : SessionEngine) : SessionEngine := if x.serial = e.serial then e else x

@[simp] theorem serial_updated (e x : SessionEngine) : (updated e x).serial = x.serial := by
  unfold updated
  split
  · rename_i h
    exact h.symm
  · rfl

theorem cache_keep (s : Session) (e : SessionEngine) :
    (s.keep e).cache = s.cache.map fun x => { x with made := updated e x.made } := by
  refine List.map_congr_left ?_
  intro x _
  unfold updated
  split <;> rfl

/-- An engine keeps its number and its object. -/
theorem keys_keep (s : Session) (e : SessionEngine) :
    (s.keep e).cache.map CacheEntry.key = s.cache.map CacheEntry.key := by
  rw [cache_keep, List.map_map]
  refine List.map_congr_left ?_
  intro x _
  exact congrArg (·, x.handle) (serial_updated e x.made)

theorem held_keep (s : Session) (e : SessionEngine) :
    (s.keep e).held = s.held.map (updated e) := by
  rw [held, held, cache_keep, List.map_append, List.map_map, List.map_map, ← Option.toList_map]
  rfl

/-- Keeping an engine as it is after a call, if it is still one of the same object. -/
theorem Sound.keep {e e' : SessionEngine} (h : Sound address s) (he : e ∈ s.held)
    (hserial : e'.serial = e.serial) (howner : e'.owner = e.owner) (hfits : s.Fits e') :
    Sound address (s.keep e') := by
  have hsame : ∀ x ∈ s.held, (updated e' x).owner = x.owner := by
    intro x hx
    unfold updated
    split
    · rename_i heq
      rw [howner]
      exact h.owner_eq e he x hx (hserial ▸ heq.symm)
    · rfl
  constructor
  case length_le =>
    rw [cache_keep, List.length_map]
    exact h.length_le
  case plain_owner =>
    intro x hx
    obtain ⟨y, hy, rfl⟩ := Option.map_eq_some_iff.1 (show s.plain.map (updated e') = some x from hx)
    rw [hsame y (mem_held.2 (.inl hy))]
    exact h.plain_owner y hy
  case entry_address =>
    simp only [cache_keep, List.forall_mem_map]
    exact h.entry_address
  case entry_owner =>
    simp only [cache_keep, List.forall_mem_map]
    intro x hx
    rw [hsame x.made (mem_held.2 (.inr ⟨x, hx, rfl⟩))]
    exact h.entry_owner x hx
  case serial_lt =>
    simp only [held_keep, List.forall_mem_map, serial_updated]
    exact h.serial_lt
  case owner_eq =>
    simp only [held_keep, List.forall_mem_map, serial_updated]
    intro x hx y hy heq
    rw [hsame x hx, hsame y hy]
    exact h.owner_eq x hx y hy heq
  case fits =>
    simp only [held_keep, List.forall_mem_map]
    intro x hx
    unfold updated
    split
    · exact hfits
    · exact h.fits x hx

theorem configs_engineFor (s : Session) (handle : Option Nat) :
    (s.engineFor address handle).2.configs = s.configs := by
  cases handle with
  | none =>
    rw [engineFor_none]
    cases s.plain <;> rfl
  | some n =>
    rw [engineFor_some]
    cases Cache.find? s.cache (address n) n <;> rfl

/-- No call changes the value of an object. -/
theorem configs_after (s : Session) (call : Call) : (s.after address call).configs = s.configs := by
  rw [after_eq]
  exact configs_engineFor s call.handle

/-- One call keeps the invariant. -/
theorem Sound.after (h : Sound address s) (call : Call) : Sound address (s.after address call) := by
  have hserves := h.serves_engineFor call.handle
  rw [after_eq]
  generalize s.engineFor address call.handle = served at hserves
  obtain ⟨e, s'⟩ := served
  refine hserves.sound.keep hserves.mem_held rfl rfl ?_
  obtain ⟨ready, hready⟩ := hserves.sound.fits e hserves.mem_held
  show ∃ ready', (e.engine.analyze _ _ _ _).2 = _
  rw [hready]
  exact Engine.exists_analyze_snd_eq _ _ ready _ _ _

theorem run_cons (s : Session) (call : Call) (calls : List Call) :
    s.run address (call :: calls) = (s.after address call).run address calls := rfl

/-- **The invariant holds along every run.** -/
theorem Sound.run (h : Sound address s) (calls : List Call) :
    Sound address (s.run address calls) := by
  induction calls generalizing s with
  | nil => exact h
  | cons call calls ih => exact ih (h.after call)

theorem configs_run (s : Session) (calls : List Call) :
    (s.run address calls).configs = s.configs := by
  induction calls generalizing s with
  | nil => rfl
  | cons call calls ih => rw [run_cons, ih, configs_after]

/-! ### What the cache holds -/

/-- The engine that a request makes for an object, if it makes one: its number and the object. -/
def construction (address : Nat → Nat) (s : Session) (handle : Option Nat) : List (Nat × Nat) :=
  handle.toList.flatMap fun n =>
    if s.made < (s.engineFor address handle).2.made then [(s.made, n)] else []

/-- The engines that calls make for objects, in the order of making. -/
def constructed (address : Nat → Nat) : Session → List Call → List (Nat × Nat)
  | _, [] => []
  | s, call :: calls =>
    s.construction address call.handle ++ constructed address (s.after address call) calls

/-- No object in the cache but itself has the address of an object. -/
def OwnAddress (address : Nat → Nat) (s : Session) (handle : Option Nat) : Prop :=
  ∀ n ∈ handle, ∀ x ∈ s.cache, address x.handle = address n → x.handle = n

instance (address : Nat → Nat) (s : Session) (handle : Option Nat) :
    Decidable (s.OwnAddress address handle) :=
  inferInstanceAs (Decidable (∀ n ∈ handle, ∀ x ∈ s.cache, address x.handle = address n →
    x.handle = n))

/-- At every call the object has an address of its own. -/
def OwnAddresses (address : Nat → Nat) : Session → List Call → Prop
  | _, [] => True
  | s, call :: calls =>
    s.OwnAddress address call.handle ∧ OwnAddresses address (s.after address call) calls

instance decidableOwnAddresses (address : Nat → Nat) :
    (s : Session) → (calls : List Call) → Decidable (OwnAddresses address s calls)
  | _, [] => .isTrue trivial
  | s, call :: calls =>
    have := decidableOwnAddresses address (s.after address call) calls
    inferInstanceAs (Decidable (_ ∧ _))

section

variable {n : Nat} (h : Sound address s) (hown : s.OwnAddress address (some n))

include h hown

theorem find?_eq_none_iff_address :
    Cache.find? s.cache (address n) n = none ↔ ∀ x ∈ s.cache, x.address ≠ address n := by
  refine Cache.find?_eq_none_iff ?_
  intro x hx haddress
  exact hown n rfl x hx (h.entry_address x hx ▸ haddress)

/-- An engine is made exactly if there is none for the object in the cache. -/
theorem made_lt_iff :
    s.made < (s.engineFor address (some n)).2.made ↔ n ∉ s.cache.map CacheEntry.handle := by
  have hmiss : (∀ x ∈ s.cache, x.address ≠ address n) ↔ n ∉ s.cache.map CacheEntry.handle := by
    simp only [List.mem_map, not_exists, not_and]
    refine forall₂_congr fun x hx => not_congr ?_
    rw [h.entry_address x hx]
    exact ⟨hown n rfl x hx, congrArg address⟩
  rw [← hmiss, ← find?_eq_none_iff_address h hown, engineFor_some]
  cases Cache.find? s.cache (address n) n with
  | some e => exact iff_of_false (lt_irrefl _) nofun
  | none => exact iff_of_true (Nat.lt_succ_self _) rfl

end

/-- The last items of a list with others behind it are found from the last items of the list. -/
theorem rtake_append_rtake {α : Type} (l m : List α) (k : Nat) :
    (l.rtake k ++ m).rtake k = (l ++ m).rtake k := by
  simp only [List.rtake_eq_reverse_take_reverse, List.reverse_append, List.reverse_reverse,
    List.take_append, List.take_take, Nat.min_eq_left (Nat.sub_le k _)]

theorem map_rtake {α β : Type} (f : α → β) (l : List α) (k : Nat) :
    (l.rtake k).map f = (l.map f).rtake k := by
  rw [List.rtake, List.rtake, List.map_drop, List.length_map]

theorem rtake_eq_self {α : Type} {l : List α} {k : Nat} (h : l.length ≤ k) : l.rtake k = l := by
  rw [List.rtake, Nat.sub_eq_zero_of_le h, List.drop_zero]

theorem Sound.rtake_keys (h : Sound address s) :
    (s.cache.map CacheEntry.key).rtake Cache.limit = s.cache.map CacheEntry.key := by
  refine rtake_eq_self ?_
  rw [List.length_map]
  exact h.length_le

/-- A request: the cache holds the last of what it held and what is new. -/
theorem keys_engineFor (h : Sound address s) (hown : s.OwnAddress address handle) :
    (s.engineFor address handle).2.cache.map CacheEntry.key =
      (s.cache.map CacheEntry.key ++ s.construction address handle).rtake Cache.limit := by
  cases handle with
  | none =>
    rw [construction, Option.toList_none, List.flatMap_nil, List.append_nil, h.rtake_keys,
      engineFor_none]
    cases s.plain <;> rfl
  | some n =>
    rw [construction, Option.toList_some, List.flatMap_singleton, engineFor_some]
    cases hfind : Cache.find? s.cache (address n) n with
    | some e => rw [if_neg (lt_irrefl _), List.append_nil, h.rtake_keys]
    | none =>
      have hnew := (find?_eq_none_iff_address h hown).1 hfind
      let entry : CacheEntry := ⟨address n, n, (s.make (some n)).1⟩
      have hput : Cache.put entry s.cache = s.cache ++ [entry] := Cache.put_of_new hnew
      have hmade : s.made < (s.withEntry address n).made := Nat.lt_succ_self s.made
      show (Cache.trim (Cache.put entry s.cache)).map CacheEntry.key = _
      rw [if_pos hmade, hput, Cache.trim_eq_rtake, map_rtake, List.map_append]
      rfl

theorem keys_after (h : Sound address s) {call : Call} (hown : s.OwnAddress address call.handle) :
    (s.after address call).cache.map CacheEntry.key =
      (s.cache.map CacheEntry.key ++ s.construction address call.handle).rtake Cache.limit := by
  rw [after_eq, ← keys_engineFor h hown]
  exact keys_keep _ _

/-- **The cache holds the last engines made, in the order of making.** -/
theorem keys_run {calls : List Call} (h : Sound address s) (hown : OwnAddresses address s calls) :
    (s.run address calls).cache.map CacheEntry.key =
      (s.cache.map CacheEntry.key ++ constructed address s calls).rtake Cache.limit := by
  induction calls generalizing s with
  | nil =>
    rw [constructed, List.append_nil, h.rtake_keys]
    rfl
  | cons call calls ih =>
    rw [run_cons, ih (h.after call) hown.2, keys_after h hown.1, rtake_append_rtake,
      List.append_assoc, constructed]

/-! ### Whole runs -/

/-- **Sessions serve the right engine.** Let a session start with nothing but its objects and be
called any number of times, whatever addresses the objects have. Then

* the engine for an object, or for none, is one that reads exactly this object, or the default
  configuration, and was set up by its value;
* the cache holds at most sixteen entries;
* if at every call no other object in the cache has the address of the object called with, the
  cache holds the last sixteen engines that were made for objects, in the order of making, and an
  engine is made for an object exactly if it has none among these;
* whatever the parser answers, an analysis and a fix come to the same result as with a new engine
  for the configuration. -/
theorem run_correct (address : Nat → Nat) (configs : List Config) (calls : List Call)
    (handle : Option Nat) :
    let start : Session := { configs }
    let s := start.run address calls
    let served := s.engineFor address handle
    let c := start.configOf handle
    let recent := (constructed address start calls).rtake 16
    (served.1.owner = handle ∧ ∃ ready, served.1.engine = Engine.builtInFor c ready) ∧
    s.cache.length ≤ 16 ∧
    (OwnAddresses address start calls →
      s.cache.map CacheEntry.key = recent ∧
      ∀ n, handle = some n → s.OwnAddress address handle →
        (s.made < served.2.made ↔ n ∉ recent.map Prod.snd)) ∧
    ∀ (text : Text) (kind : Option String) (answer : ParserAnswer),
      (s.analyze address handle text kind answer).1.result =
        ((Engine.forConfig c Registry.builtIn).analyze c text kind answer).1.result ∧
      (s.fix address handle text kind answer).1.result =
        ((Engine.forConfig c Registry.builtIn).fix c text kind answer).1.result := by
  intro start s served c recent
  have hsound : Sound address s := (sound_new address configs).run calls
  have hserves := hsound.serves_engineFor handle
  have hconfig : served.2.configOf served.1.owner = c := by
    rw [hserves.owner_eq, configOf, configs_engineFor, configs_run]
    rfl
  obtain ⟨ready, hready⟩ := hserves.sound.fits served.1 hserves.mem_held
  rw [hconfig] at hready
  refine ⟨⟨hserves.owner_eq, ready, hready⟩, hsound.length_le, ?_, ?_⟩
  · intro hown
    have hkeys : s.cache.map CacheEntry.key = recent := keys_run (sound_new address configs) hown
    refine ⟨hkeys, ?_⟩
    rintro n rfl hn
    rw [← hkeys, List.map_map]
    exact made_lt_iff hsound hn
  · intro text kind answer
    constructor
    · show (served.1.engine.analyze (served.2.configOf served.1.owner) text kind
        answer).1.result = _
      rw [hconfig, hready]
      exact Engine.result_analyze_ready c c ready [] text kind answer
    · show (served.1.engine.fix (served.2.configOf served.1.owner) text kind answer).1.result = _
      rw [hconfig, hready]
      exact Engine.result_fix_ready c c ready [] text kind answer

/-- Eighteen objects. Every second of them refuses trees with syntax errors, the last one too. -/
def eighteenConfigs : List Config :=
  (List.range 18).map fun n => { rejectSyntaxErrors := .bool (n % 2 == 1) }

/-- An address for each object but the last, which has that of the first. -/
def sharedAddress (n : Nat) : Nat := n % 17

/-- A call with each object, one after the other. -/
def eighteenCalls : List Call :=
  (List.range 18).map fun n =>
    { handle := some n, task := .analyze, text := [], kind := some "ts", answer := .nothing }

/-- The session after these calls. -/
def afterEighteen : Session :=
  run sharedAddress { configs := eighteenConfigs } eighteenCalls

/-- When the last object is called with, the first has left the cache, and the address is free to
be used again. Then there is no engine for the second object any more and a new one is made. The
first object gets an engine of its own, which takes trees with syntax errors, although the last is
found under its address. -/
theorem sharedAddress_served :
    OwnAddresses sharedAddress { configs := eighteenConfigs } eighteenCalls ∧
    afterEighteen.cache.map CacheEntry.key = (List.range' 2 16).map (fun n => (n, n)) ∧
    afterEighteen.made < (afterEighteen.engineFor sharedAddress (some 1)).2.made ∧
    (afterEighteen.engineFor sharedAddress (some 0)).1.owner = some 0 ∧
    ∃ ready, (afterEighteen.engineFor sharedAddress (some 0)).1.engine =
      Engine.builtInFor { rejectSyntaxErrors := .bool false } ready := by
  have hown : OwnAddresses sharedAddress { configs := eighteenConfigs } eighteenCalls := by
    decide +kernel
  have hfree : afterEighteen.OwnAddress sharedAddress (some 1) := by decide +kernel
  have hconstructed :
      (constructed sharedAddress { configs := eighteenConfigs } eighteenCalls).rtake 16 =
        (List.range' 2 16).map (fun n => (n, n)) := by decide +kernel
  unfold afterEighteen at hfree ⊢
  obtain ⟨hfirst, -⟩ := run_correct sharedAddress eighteenConfigs eighteenCalls (some 0)
  obtain ⟨-, -, hsecond, -⟩ := run_correct sharedAddress eighteenConfigs eighteenCalls (some 1)
  obtain ⟨hkeys, hmade⟩ := hsecond hown
  refine ⟨hown, hkeys.trans hconstructed, ?_, hfirst⟩
  rw [hmade 1 rfl hfree, hconstructed]
  decide

end Session

end TreeLint
