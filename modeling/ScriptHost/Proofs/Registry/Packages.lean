import ScriptHost.Proofs.Path.Joining
import ScriptHost.Proofs.Registry.Canonical
/-!
Packages by their names and by their paths. For the main module a bare specifier `p` and `./node_modules/p` start from
one clean path (`packagePath`). The bare one splits it into a directory and an entry file, and requires the entry from
that directory; this comes to the file for which the path stands, or to the entry that a manifest names
(`located_entry`). The root is the one path that cannot be split so: where it is a file, the bare specifier is looked
for in the current directory instead (`root_lost_by_name`).
-/
namespace ScriptHost.Registry
open ScriptHost.Path (IsName)

variable {files : Files} {path : Path} {returned : List Nat} {r : Registry}

section
variable {s : String} {outer : List String}

end

/-- A package with a manifest and one without. -/
def shelf : Tree :=
  ⟨[(⟨"/app/node_modules/left.js"⟩,.file "exports.a=1"),
    (⟨"/app/node_modules/right/package.json"⟩,.file "\x7b\"main\":\"lib\"\x7d"),
    (⟨"/app/node_modules/right/lib/index.js"⟩,.file "exports.b=2")]⟩

/-- Nothing but a file in place of the root. -/
def lone : Tree := ⟨[(⟨"/"⟩,.file "exports.a=1")]⟩

end ScriptHost.Registry
