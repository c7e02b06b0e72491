/-!
# Webs of things

This module holds how everything is collected that can be reached in a web of things. Every
thing stands under a key and leads to keys; what it leads to is worked out in stages when
the thing is collected, and may fail, so that of several failures the first one on the way
is reported.
-/

namespace SchemaOrder.Schema

/-- The things collected so far, the last one first, and the keys of those that are
collected or will be. -/
structure Gathered (κ ν : Type) where
  known : List κ
  collected : List ν

/-- A web of things. -/
structure Web (ε κ ν : Type) where
  key : ν → κ
  /-- The keys that a thing leads to, in the stages in which they are worked out. -/
  stages : ν → List (Except ε (List κ))
  find? : κ → Option ν

namespace Web

variable {ε κ ν : Type} [BEq κ]

/-- Collects a thing and what it leads to. Every step down collects a thing, so that the
number of things bounds the depth. -/
def visit (web : Web ε κ ν) (fuel : Nat) (thing : ν) (state : Gathered κ ν) :
    Except ε (Gathered κ ν) :=
  match fuel with
  | 0 => .ok state
  | fuel + 1 =>
    let entered : Gathered κ ν := ⟨web.key thing :: state.known, thing :: state.collected⟩
    (web.stages thing).foldlM (fun state stage => do
      let keys ← stage
      keys.foldlM (fun state key =>
        if state.known.contains key then .ok state
        else
          match web.find? key with
          | some next => visit web fuel next state
          | none => .ok state) state) entered

/-- Collects the thing under a key, if it is not among the known ones. -/
def visitKey (web : Web ε κ ν) (fuel : Nat) (state : Gathered κ ν) (key : κ) :
    Except ε (Gathered κ ν) :=
  if state.known.contains key then .ok state
  else
    match web.find? key with
    | some thing => web.visit fuel thing state
    | none => .ok state

/-- The listed things, each with what it leads to, and then what some keys lead to. Listed
things wait for their turn, whatever leads to them. -/
def collect (web : Web ε κ ν) (fuel : Nat) (listed : List ν) (keys : List κ) :
    Except ε (List ν) := do
  let first ← listed.foldlM (fun state thing => web.visit fuel thing state)
    ⟨listed.map web.key, []⟩
  let all ← keys.foldlM (web.visitKey fuel) first
  pure all.collected.reverse

end Web

end SchemaOrder.Schema
