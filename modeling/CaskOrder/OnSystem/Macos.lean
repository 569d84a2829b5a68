import CaskOrder.OnSystem.BlockNames

/-!
# Releases of macOS

The releases that a cask can tell apart, from the newest to the oldest, with their
version numbers, and the block names that are derived from them.
-/

namespace CaskOrder

namespace Macos

def releases : List (String × String) :=
  [("tahoe", "26"), ("sequoia", "15"), ("sonoma", "14"), ("ventura", "13"),
   ("monterey", "12"), ("big_sur", "11"), ("catalina", "10.15"), ("mojave", "10.14"),
   ("high_sierra", "10.13"), ("sierra", "10.12"), ("el_capitan", "10.11")]

def symbols : List String :=
  releases.map Prod.fst

/-- The version number of a release, such as `10.15` for `catalina`. -/
def number? (symbol : String) : Option String :=
  releases.lookup symbol

end Macos

def BlockNames.macos : BlockNames :=
  (BlockNames.ofReleases Macos.symbols).value

end CaskOrder
