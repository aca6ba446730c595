import UrlHarvest.Proofs.Entries
import UrlHarvest.Tree.Basic

namespace UrlHarvest

namespace Tree

theorem leavesOfEntries_eq_flatMap (path : String) (entries : List (String × Tree)) :
    leavesOfEntries path entries =
      entries.flatMap fun entry => leaves (underKey path entry.1) entry.2 := by
  induction entries with
  | nil => rfl
  | cons entry rest ih => rw [leavesOfEntries, ih, List.flatMap_cons]

theorem leaves_ofEntries (path : String) (entries : List (String × Tree)) :
    leaves path (ofEntries entries) =
      (Entries.putAll [] entries).flatMap fun entry => leaves (underKey path entry.1) entry.2 :=
  leavesOfEntries_eq_flatMap path _

end Tree

end UrlHarvest
