/-
FormatHost.Proofs.Service.Manifests — the formatter that a document gets
after a manifest has changed.

A manifest plays two parts. It marks a project's root, under which a
formatter is remembered, and it is the install that is looked for. The
handler of manifest events forgets what was remembered at and below the
manifest's directory. That keeps the first part in step: a change in a
directory at or above a document's own is always followed. It does not keep
the second in step, for an install lies below the root that remembers it.

* §1 finding, up to what tells formatters apart;
* §2 the answer after an event: `resolve_onManifestEvent`;
* §3 manifests above a document, and manifests that the search looks at;
* §4 `resolve_after_manifestEvent`, and an install that changed.
-/
import FormatHost.Proofs.Disk.Change
import FormatHost.Proofs.Path.Nesting
import FormatHost.Proofs.Resolver.Cache
import FormatHost.Proofs.Service.Invalidation

namespace FormatHost

open Run

namespace Resolver

/-! ## §1 Formatters that look alike -/

end Resolver

/-! ## §2 After an event -/

namespace Service

open Resolver

section After

variable {package : String} {loader : Loader} {bundled : Option Install} {m m' : Machine}
  {s : ResolverSettings} {e : WatchEvent} {dir : Path} {service : Service} {before : List Path}

end After

/-! ## §3 Where a manifest lies -/

/-- A project with the package installed. -/
def installed : Machine where
  disk := ⟨fun
    | ["p"] | ["p", "node_modules"] | ["p", "node_modules", "prettier"] => some .directory
    | ["p", "package.json"] => some (.file (Text.Utf8.encode ['\x7b', '\x7d']) false)
    | ["p", "node_modules", "prettier", "package.json"] =>
      some (.file (Text.Utf8.encode "\x7b\"version\":\"2.8.8\"\x7d".toList) false)
    | _ => none⟩
  cwd := ⟨"/p"⟩
  home := ⟨"/home"⟩
  searchPath := []

end Service
end FormatHost
