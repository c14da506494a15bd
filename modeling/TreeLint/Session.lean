import TreeLint.Engine

/-!
# Sessions

A host that calls the engine again and again passes a configuration object with each call, or
none. The session keeps one engine for each object it has been passed, at most sixteen of them,
the oldest dropped first, and one engine for calls without a configuration.

Objects are told apart by identity, not by value. Here an object is a handle into a store, whose
value may change between calls. An engine reads the value of its object at every call; only its
frontend was set up when the engine was made. The cache finds an object by an address, which
another object may share, and then makes sure that it is the same object.
-/

namespace TreeLint

/-- An engine that a session made. -/
structure SessionEngine where
  /-- The number of the engine, in the order of making. -/
  serial : Nat
  /-- The configuration object whose value the engine reads; without one, the default
  configuration. -/
  owner : Option Nat
  engine : Engine

/-- An engine kept for a configuration object. -/
structure CacheEntry where
  address : Nat
  handle : Nat
  made : SessionEngine

/-- The engines kept for configuration objects, in the order of making. -/
abbrev Cache := List CacheEntry

namespace Cache

/-- How many engines are kept. -/
def limit : Nat := 16

/-- The engine kept for an object. -/
def find? (cache : Cache) (address handle : Nat) : Option SessionEngine :=
  match List.find? (fun e => e.address == address) cache with
  | some e => if e.handle = handle then some e.made else none
  | none => none

/-- Put an entry in the place of one with the same address, or behind all entries. -/
def put (entry : CacheEntry) : Cache → Cache
  | [] => [entry]
  | e :: rest => if e.address = entry.address then entry :: rest else e :: put entry rest

/-- Keep the youngest entries. -/
def trim (cache : Cache) : Cache := cache.drop (cache.length - limit)

/-- A trimmed cache is within the limit. -/
theorem length_trim_le (cache : Cache) : (trim cache).length ≤ limit := by
  simp only [trim, List.length_drop]
  omega

/-- Replace the engine with a serial number. -/
def store (made : SessionEngine) (cache : Cache) : Cache :=
  cache.map fun e => if e.made.serial = made.serial then { e with made } else e

end Cache

/-- What a session keeps between calls. -/
structure Session where
  /-- The values of the configuration objects, by handle. -/
  configs : List Config := []
  /-- The engine for calls without a configuration. -/
  plain : Option SessionEngine := none
  cache : Cache := []
  /-- How many engines were made. -/
  made : Nat := 0

namespace Session

/-- A new configuration object. -/
def newConfig (s : Session) (c : Config) : Nat × Session :=
  (s.configs.length, { s with configs := s.configs ++ [c] })

/-- Change the value of a configuration object. -/
def modifyConfig (s : Session) (handle : Nat) (f : Config → Config) : Session :=
  { s with configs := s.configs.modify handle f }

/-- The value of a configuration object; without one the default configuration holds. -/
def configOf (s : Session) (handle : Option Nat) : Config :=
  (handle.bind fun h => s.configs[h]?).getD Config.default

/-- Make an engine for a configuration object, or for none. -/
def make (s : Session) (owner : Option Nat) : SessionEngine × Session :=
  (⟨s.made, owner, Engine.forConfig (s.configOf owner) Registry.builtIn⟩,
    { s with made := s.made + 1 })

/-- The engine for a configuration object, or for none. Addresses are given by `address`. -/
def engineFor (address : Nat → Nat) (s : Session) :
    Option Nat → SessionEngine × Session
  | none =>
    match s.plain with
    | some e => (e, s)
    | none =>
      let (e, s) := s.make none
      (e, { s with plain := some e })
  | some handle =>
    match Cache.find? s.cache (address handle) handle with
    | some e => (e, s)
    | none =>
      let (e, s) := s.make (some handle)
      (e, { s with cache := Cache.trim (Cache.put ⟨address handle, handle, e⟩ s.cache) })

/-- Keep an engine as it is after a call. -/
def keep (s : Session) (e : SessionEngine) : Session :=
  { s with
    plain := s.plain.map fun old => if old.serial = e.serial then e else old
    cache := Cache.store e s.cache }

/-- Analyze a text with the engine for a configuration object. -/
def analyze (address : Nat → Nat) (s : Session) (handle : Option Nat) (text : Text)
    (kind : Option String) (answer : ParserAnswer) : Attempt Failure Analysis × Session :=
  let (e, s) := s.engineFor address handle
  let (a, engine) := e.engine.analyze (s.configOf e.owner) text kind answer
  (a, s.keep { e with engine })

/-- Fix a text with the engine for a configuration object. -/
def fix (address : Nat → Nat) (s : Session) (handle : Option Nat) (text : Text)
    (kind : Option String) (answer : ParserAnswer) : Attempt Failure Text × Session :=
  let (e, s) := s.engineFor address handle
  let (a, engine) := e.engine.fix (s.configOf e.owner) text kind answer
  (a, s.keep { e with engine })

end Session

end TreeLint
