import OpcodeTables.Proofs.RepeatedWrites
import OpcodeTables.Proofs.Storage.Retagging

/-! Tags make no difference to a write. Whichever it is given, it ends with the same exit status and
leaves the same files and directories.
-/

namespace OpcodeTables

open FileTree

/-- How the two targets are prepared, and the tree after that. Tags have no part in it. -/
def prepared (settings : Settings) (tree : FileTree) : Except FileError Unit × FileTree :=
  ([settings.rulesPath, settings.assemblyPath].forM Publication.prepare : Work Unit).run tree

/-- Tags that a write in a tree can be given. They are drawn, no target has the name of a staging
file, and when the staging files are made, none of them exists.
-/
structure Tags.Allotted (tags : Tags) (settings : Settings) (tree : FileTree) : Prop where
  rules : Tags.Drawn tags.rules
  assembly : Tags.Drawn tags.assembly
  fresh : tags.FreshFor settings
  unused : tags.UnusedIn settings (prepared settings tree).2

/-- Any drawn tags can be given to a write in whose tree all names are short. -/
theorem Tags.Allotted.of_shortNames {tags : Tags} {settings : Settings} {tree : FileTree}
    (normal : settings.directory.Normal) (rules : Drawn tags.rules) (assembly : Drawn tags.assembly)
    (apart : settings.rulesPath.name ≠ settings.assemblyPath.name)
    (shortRules : settings.rulesPath.name.length < 6)
    (shortAssembly : settings.assemblyPath.name.length < 6)
    (short : ∀ entry ∈ (prepared settings tree).2.nodes, (entry.1.headD []).length < 6)
    : tags.Allotted settings tree :=
  ⟨rules, assembly, .of_shortNames rules assembly shortRules shortAssembly,
    .of_shortNames normal rules assembly apart short⟩

theorem Tags.UnusedIn.available {tags : Tags} {settings : Settings} {tree : FileTree}
    (unused : tags.UnusedIn settings tree) (tables : Tables)
    : tree.Available (settings.deliveries tags tables) := by
  refine ⟨?_, ?_⟩
  · simp only [Settings.deliveries, List.forall_mem_cons, List.not_mem_nil, false_imp_iff,
      implies_true, and_true]
    exact ⟨unused.rules, unused.assembly⟩
  · simp only [Settings.deliveries, List.pairwise_pair]
    exact unused.apart

end OpcodeTables
