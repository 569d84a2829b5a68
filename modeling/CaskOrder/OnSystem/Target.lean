import CaskOrder.Json.Choice

/-!
# What an `on_system` block is for

A block of a cask is meant either for an architecture or for a release of the operating
system.  Its name tells which, but not of which kind the target is: a release may have
the tag of an architecture.
-/

namespace CaskOrder

inductive Arch where
  | arm
  | intel
deriving DecidableEq, Repr

namespace Arch

def all : List Arch :=
  [arm, intel]

def tag : Arch → String
  | arm => "arm"
  | intel => "intel"

def reader : Json.Reader Arch :=
  Json.choice (all.map fun arch => (arch.tag, arch))

end Arch

inductive Target where
  | arch (arch : Arch)
  | release (symbol : String)
deriving DecidableEq, Repr

def blockName (tag : String) : String :=
  "on_" ++ tag

namespace Target

def tag : Target → String
  | arch a => a.tag
  | release symbol => symbol

def blockName (target : Target) : String :=
  CaskOrder.blockName target.tag

/-- Both architectures, followed by the given releases. -/
def withReleases (symbols : List String) : List Target :=
  Arch.all.map arch ++ symbols.map release

end Target
end CaskOrder
