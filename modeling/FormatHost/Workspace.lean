/-
FormatHost.Workspace — the folders that are open in the editor.
-/
import FormatHost.Path

namespace FormatHost

/-- The open folders, in the order they were added. -/
structure Workspace where
  folders : List Path := []
  deriving Repr

namespace Workspace

def add (w : Workspace) (folder : Path) : Workspace :=
  if w.folders.contains folder then w else ⟨w.folders ++ [folder]⟩

def remove (w : Workspace) (folder : Path) : Workspace :=
  ⟨w.folders.filter fun f => !(f == folder)⟩

/-- Of two folders the deeper one, and of equally deep ones the second. -/
def deeper (a b : Path) : Path :=
  if b.components.length < a.components.length then a else b

/-- The deepest of a list of folders. -/
def deepest? : List Path → Option Path
  | [] => none
  | f :: fs => some (fs.foldl deeper f)

/-- The innermost open folder that contains a path. -/
def folderFor (w : Workspace) (p : Path) : Option Path :=
  deepest? (w.folders.filter fun f => p.startsWith f)

end Workspace
end FormatHost
