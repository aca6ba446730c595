import Mathlib.Data.List.Basic
import Std.Data.String.ToNat
import UrlHarvest.Proofs.Text.Space
import UrlHarvest.Proofs.Tree.Entries
import UrlHarvest.Tree.Collect

namespace UrlHarvest

theorem flatMap_eq_flatMap_iff {α β : Type} (items : List α) (f g : α → List β)
    (hlength : ∀ item ∈ items, (f item).length = (g item).length) :
    items.flatMap f = items.flatMap g ↔ ∀ item ∈ items, f item = g item := by
  refine ⟨fun h => ?_, List.flatMap_congr⟩
  induction items with
  | nil => simp
  | cons item rest ih =>
      obtain ⟨hitem, hrest⟩ := List.forall_mem_cons.mp hlength
      rw [List.flatMap_cons, List.flatMap_cons] at h
      obtain ⟨hhead, htail⟩ := List.append_inj h hitem
      exact List.forall_mem_cons.mpr ⟨hhead, ih hrest htail⟩

-- What a record says of a reference, but for its place and what can be read off the value.
def Url.label (url : Url) : String × Option String × Option String :=
  (url.value, url.type, url.context)

theorem Url.label_ofReference_inj (value context other : String) :
    (ofReference value context none).label = (ofReference value other none).label ↔
      context = other := by
  simp [label, ofReference, ofValue]

namespace Tree

-- Other values stand below it.
def isContainer : Tree → Bool
  | list _ | map _ => true
  | null | bool _ | number _ | moment | text _ => false

def isReference : Tree → Bool
  | text value => Reference.holds value.toList
  | _ => false

theorem isText_of_isReference (tree : Tree) (h : tree.isReference = true) :
    tree.isText = true := by
  cases tree <;> first | rfl | cases h

-- The way down from a tree at `path`: a key stands behind a dot and an index between brackets, and
-- the way ends at `place`, where `leaf` stands.
inductive LeadsTo : Tree → String → String → Tree → Prop
  | here (leaf : Tree) (path : String) : LeadsTo leaf path path leaf
  | key {entries : List (String × Tree)} {path key place : String} {value leaf : Tree} :
      (key, value) ∈ entries → LeadsTo value (underKey path key) place leaf →
        LeadsTo (map entries) path place leaf
  | index {items : List Tree} {path place : String} {index : Nat} {item leaf : Tree} :
      items[index]? = some item → LeadsTo item (underIndex path index) place leaf →
        LeadsTo (list items) path place leaf

section LeadsTo

variable {path place leaf : String}

theorem leadsTo_text_iff (value : String) :
    (text value).LeadsTo path place (text leaf) ↔ value = leaf ∧ path = place := by
  constructor
  · rintro ⟨⟩
    exact ⟨rfl, rfl⟩
  · rintro ⟨rfl, rfl⟩
    exact .here _ _

theorem leadsTo_list_iff (items : List Tree) :
    (list items).LeadsTo path place (text leaf) ↔
      ∃ (index : Nat) (item : Tree), items[index]? = some item ∧
        item.LeadsTo (underIndex path index) place (text leaf) := by
  constructor
  · rintro (_ | _ | ⟨hitem, hleads⟩)
    exact ⟨_, _, hitem, hleads⟩
  · rintro ⟨index, item, hitem, hleads⟩
    exact .index hitem hleads

theorem leadsTo_map_iff (entries : List (String × Tree)) :
    (map entries).LeadsTo path place (text leaf) ↔
      ∃ key value, (key, value) ∈ entries ∧
        value.LeadsTo (underKey path key) place (text leaf) := by
  constructor
  · rintro (_ | ⟨hentry, hleads⟩ | _)
    exact ⟨_, _, hentry, hleads⟩
  · rintro ⟨key, value, hentry, hleads⟩
    exact .key hentry hleads

end LeadsTo

theorem leavesOfItems_eq_flatMap (path : String) (start : Nat) (items : List Tree) :
    leavesOfItems path start items =
      (items.zipIdx start).flatMap fun item => leaves (underIndex path item.2) item.1 := by
  induction items generalizing start with
  | nil => rfl
  | cons item rest ih => rw [leavesOfItems, ih, List.zipIdx_cons, List.flatMap_cons]

mutual

-- A walk goes down to every text that it gives.
theorem leadsTo_of_mem_leaves (tree : Tree) (path place value : String)
    (h : (place, value) ∈ tree.leaves path) : tree.LeadsTo path place (text value) := by
  cases tree with
  | text leaf =>
      obtain ⟨rfl, rfl⟩ := Prod.mk.inj (List.mem_singleton.mp h)
      exact .here _ _
  | list items =>
      obtain ⟨offset, item, hitem, hleads⟩ :=
        leadsTo_of_mem_leavesOfItems items path 0 place value h
      exact .index hitem (Nat.zero_add offset ▸ hleads)
  | map entries =>
      obtain ⟨key, inner, hentry, hleads⟩ :=
        leadsTo_of_mem_leavesOfEntries entries path place value h
      exact .key hentry hleads
  | null | bool | number | moment => cases h

theorem leadsTo_of_mem_leavesOfItems (items : List Tree) (path : String) (start : Nat)
    (place value : String) (h : (place, value) ∈ leavesOfItems path start items) :
    ∃ (offset : Nat) (item : Tree), items[offset]? = some item ∧
      item.LeadsTo (underIndex path (start + offset)) place (text value) := by
  cases items with
  | nil => cases h
  | cons item rest =>
      rcases List.mem_append.mp h with hitem | hrest
      · exact ⟨0, item, rfl, leadsTo_of_mem_leaves item _ place value hitem⟩
      · obtain ⟨offset, other, hother, hleads⟩ :=
          leadsTo_of_mem_leavesOfItems rest path (start + 1) place value hrest
        exact ⟨offset + 1, other, hother, by rwa [Nat.add_right_comm] at hleads⟩

theorem leadsTo_of_mem_leavesOfEntries (entries : List (String × Tree)) (path place value : String)
    (h : (place, value) ∈ leavesOfEntries path entries) :
    ∃ key inner, (key, inner) ∈ entries ∧
      inner.LeadsTo (underKey path key) place (text value) := by
  cases entries with
  | nil => cases h
  | cons entry rest =>
      rcases List.mem_append.mp h with hentry | hrest
      · exact ⟨entry.1, entry.2, List.mem_cons_self,
          leadsTo_of_mem_leaves entry.2 _ place value hentry⟩
      · obtain ⟨key, inner, hinner, hleads⟩ :=
          leadsTo_of_mem_leavesOfEntries rest path place value hrest
        exact ⟨key, inner, List.mem_cons_of_mem _ hinner, hleads⟩

end

theorem underIndex_inj (path : String) (index other : Nat) :
    underIndex path index = underIndex path other ↔ index = other := by
  rw [underIndex, underIndex, String.append_left_inj, String.append_right_inj, Nat.repr_inj]

-- The labels of the references among the items, of which the first has the number `start`.
def labelsAmong (path : String) (start : Nat) :
    List Tree → List (String × Option String × Option String)
  | [] => []
  | text value :: rest =>
    if Reference.holds value.toList then
      (Url.ofReference value (underIndex path start) none).label ::
        labelsAmong path (start + 1) rest
    else labelsAmong path (start + 1) rest
  | _ :: rest => labelsAmong path (start + 1) rest

section Labels

variable (path : String) (start : Nat) (item : Tree) (rest items : List Tree)

theorem labelsAmong_cons_of_isReference (h : item.isReference = true) :
    ∃ value, ∀ start rest, labelsAmong path start (item :: rest) =
      (Url.ofReference value (underIndex path start) none).label ::
        labelsAmong path (start + 1) rest := by
  cases item with
  | text value => exact ⟨value, fun start rest => if_pos h⟩
  | _ => cases h

theorem labelsAmong_cons_of_not (h : item.isReference = false) :
    labelsAmong path start (item :: rest) = labelsAmong path (start + 1) rest := by
  cases item with
  | text value => exact if_neg (Bool.eq_false_iff.mp h)
  | _ => rfl

theorem length_labelsAmong :
    (labelsAmong path start items).length = items.countP isReference := by
  induction items generalizing start with
  | nil => rfl
  | cons item rest ih =>
      cases h : item.isReference with
      | false =>
          rw [labelsAmong_cons_of_not path start item rest h, ih,
            List.countP_cons_of_neg (by simp [h])]
      | true =>
          obtain ⟨value, hlabels⟩ := labelsAmong_cons_of_isReference path item h
          rw [hlabels, List.length_cons, ih, List.countP_cons_of_pos h]

-- No reference stands behind an item that is no text.
def ReferencesInFront (items : List Tree) : Prop :=
  items.Pairwise fun earlier later => later.isReference = true → earlier.isText = true

instance (items : List Tree) : Decidable (ReferencesInFront items) :=
  inferInstanceAs (Decidable (items.Pairwise _))

theorem referencesInFront_cons :
    ReferencesInFront (item :: rest) ↔
      ((∀ other ∈ rest, other.isReference = true → item.isText = true) ∧
        ReferencesInFront rest) :=
  List.pairwise_cons

theorem referencesInFront_of_none (h : ∀ item ∈ items, item.isReference = false) :
    ReferencesInFront items :=
  List.pairwise_of_forall_mem_list fun _ _ later hlater href => by simp [h later hlater] at href

-- Numbers given to the texts alone are those of the items as long as there are only texts, and
-- behind another item they never catch up again.
theorem labelsAmong_texts_eq_iff (number : Nat) (hle : number ≤ start) :
    labelsAmong path number (items.filter isText) = labelsAmong path start items ↔
      (∀ item ∈ items, item.isReference = false) ∨
        number = start ∧ ReferencesInFront items := by
  induction items generalizing number start with
  | nil => simp [labelsAmong]
  | cons item rest ih =>
      rw [List.forall_mem_cons, referencesInFront_cons]
      cases href : item.isReference with
      | true =>
          have htext := item.isText_of_isReference href
          obtain ⟨value, hlabels⟩ := labelsAmong_cons_of_isReference path item href
          have hhead :=
            Url.label_ofReference_inj value (underIndex path number) (underIndex path start)
          rw [underIndex_inj] at hhead
          rw [List.filter_cons_of_pos htext, hlabels, hlabels, List.cons.injEq, hhead,
            ih (start + 1) (number + 1) (Nat.succ_le_succ hle)]
          constructor
          · rintro ⟨he, hnone | ⟨-, hfront⟩⟩
            · exact .inr ⟨he, fun _ _ _ => htext, referencesInFront_of_none rest hnone⟩
            · exact .inr ⟨he, fun _ _ _ => htext, hfront⟩
          · rintro (⟨hplain, -⟩ | ⟨he, -, hfront⟩)
            · cases hplain
            · exact ⟨he, .inr ⟨congrArg (· + 1) he, hfront⟩⟩
      | false =>
          rw [labelsAmong_cons_of_not path start item rest href]
          cases htext : item.isText with
          | true =>
              rw [List.filter_cons_of_pos htext, labelsAmong_cons_of_not path number item _ href,
                ih (start + 1) (number + 1) (Nat.succ_le_succ hle)]
              simp
          | false =>
              -- The number of the item is used up on one side alone.
              rw [List.filter_cons_of_neg (by simp [htext]),
                ih (start + 1) number (Nat.le_succ_of_le hle)]
              constructor
              · rintro (hnone | ⟨he, -⟩)
                · exact .inl ⟨rfl, hnone⟩
                · omega
              · rintro (⟨-, hnone⟩ | ⟨-, hfront, -⟩)
                · exact .inl hnone
                · left
                  intro other hother
                  rw [Bool.eq_false_iff]
                  intro h
                  cases hfront other hother h

end Labels

theorem references_list (path : String) (items : List Tree) :
    references path (list items) =
      items.zipIdx.flatMap fun item => references (underIndex path item.2) item.1 := by
  rw [references, leaves, leavesOfItems_eq_flatMap, List.filterMap_flatMap]
  rfl

theorem references_map (path : String) (entries : List (String × Tree)) :
    references path (map entries) =
      entries.flatMap fun entry => references (underKey path entry.1) entry.2 := by
  rw [references, leaves, leavesOfEntries_eq_flatMap, List.filterMap_flatMap]
  rfl

theorem references_text (path value : String) :
    references path (text value) =
      if Reference.holds value.toList then [Url.ofReference value path none] else [] := by
  cases h : Reference.holds value.toList <;> simp [references, leaves, h]

theorem labels_references_list (path : String) (items : List Tree)
    (hflat : ∀ item ∈ items, item.isContainer = false) :
    (references path (list items)).map Url.label = labelsAmong path 0 items := by
  rw [references_list, List.map_flatMap]
  generalize 0 = start
  induction items generalizing start with
  | nil => rfl
  | cons item rest ih =>
      obtain ⟨hitem, hrest⟩ := List.forall_mem_cons.mp hflat
      rw [List.zipIdx_cons, List.flatMap_cons, ih hrest]
      cases item with
      | text value =>
          rw [references_text, labelsAmong]
          split <;> rfl
      | list | map => cases hitem
      | null | bool | number | moment => rfl

theorem labels_referencesAmong (context : String) (items : List Tree) :
    (referencesAmong context items).map Url.label = labelsAmong context 0 items := by
  rw [referencesAmong, List.map_filterMap]
  generalize 0 = start
  induction items generalizing start with
  | nil => rfl
  | cons item rest ih =>
      rw [List.zipIdx_cons, List.filterMap_cons, ih]
      cases item with
      | text value => cases h : Reference.holds value.toList <;> simp [labelsAmong, h, Url.label,
          Url.ofReference, Url.ofValue]
      | _ => rfl

-- A list without what is no text in it.
def textsOnly : Tree → Tree
  | list items => list (items.filter isText)
  | tree => tree

def items : Tree → List Tree
  | list items => items
  | _ => []

-- The lists right below hold no lists and no maps.
def HoldsFlatLists (entries : List (String × Tree)) : Prop :=
  ∀ entry ∈ entries, ∀ item ∈ entry.2.items, item.isContainer = false

instance (entries : List (String × Tree)) : Decidable (HoldsFlatLists entries) :=
  inferInstanceAs (Decidable (∀ entry ∈ entries, ∀ item ∈ entry.2.items, _))

-- In no list right below a reference stands behind an item that is no text.
def KeepsReferencesInFront (entries : List (String × Tree)) : Prop :=
  ∀ entry ∈ entries, ReferencesInFront entry.2.items

instance (entries : List (String × Tree)) : Decidable (KeepsReferencesInFront entries) :=
  inferInstanceAs (Decidable (∀ entry ∈ entries, ReferencesInFront entry.2.items))

theorem isContainer_of_mem_filter (items : List Tree) (item : Tree)
    (hitem : item ∈ items.filter isText) : item.isContainer = false := by
  have htext := (List.mem_filter.mp hitem).2
  cases item with
  | text => rfl
  | _ => cases htext

theorem labels_referencesOf (context : String) (entries : List (String × Tree)) :
    (referencesOf context entries).map Url.label =
      entries.flatMap fun entry =>
        (references (underKey context entry.1) entry.2.textsOnly).map Url.label := by
  rw [referencesOf, List.map_flatMap]
  refine List.flatMap_congr fun entry hentry => ?_
  obtain ⟨key, value⟩ := entry
  cases value with
  | text leaf => exact congrArg (List.map Url.label) (references_text _ leaf).symm
  | list items =>
      rw [textsOnly, labels_references_list _ _ (isContainer_of_mem_filter items),
        labels_referencesAmong]
  | map | null | bool | number | moment => rfl

theorem labels_references_map (context : String) (entries : List (String × Tree)) :
    (references context (map entries)).map Url.label =
      entries.flatMap fun entry =>
        (references (underKey context entry.1) entry.2).map Url.label := by
  rw [references_map, List.map_flatMap]

-- Of a list that holds no containers, the texts alone give as many references as the whole list.
theorem length_labels_textsOnly (path : String) (value : Tree)
    (hflat : ∀ item ∈ value.items, item.isContainer = false) :
    ((references path value.textsOnly).map Url.label).length =
      ((references path value).map Url.label).length := by
  cases value with
  | list items =>
      rw [textsOnly, labels_references_list _ _ (isContainer_of_mem_filter items),
        labels_references_list _ items hflat, length_labelsAmong, length_labelsAmong,
        List.countP_filter]
      congr 1
      funext item
      cases item <;> simp [isReference, isText]
  | _ => rfl

theorem labels_textsOnly_eq_iff (path : String) (value : Tree)
    (hflat : ∀ item ∈ value.items, item.isContainer = false) :
    (references path value.textsOnly).map Url.label = (references path value).map Url.label ↔
      ReferencesInFront value.items := by
  cases value with
  | list items =>
      rw [textsOnly, labels_references_list _ _ (isContainer_of_mem_filter items),
        labels_references_list _ items hflat,
        labelsAmong_texts_eq_iff path 0 items 0 (Nat.le_refl 0)]
      constructor
      · rintro (hnone | ⟨-, hfront⟩)
        · exact referencesInFront_of_none items hnone
        · exact hfront
      · exact fun h => .inr ⟨rfl, h⟩
  | _ => exact iff_of_true rfl .nil

-- The context of a reference leads from the tree to the text that the reference was taken from.
def LeadsBack (tree : Tree) (context : String) (url : Url) : Prop :=
  ∃ place leaf, url.context = some place ∧ url.value = trimmed leaf ∧
    tree.LeadsTo context place (text leaf)

theorem leadsBack_of_mem_references (tree : Tree) (context : String) (url : Url)
    (hurl : url ∈ references context tree) : tree.LeadsBack context url := by
  obtain ⟨⟨place, leaf⟩, hleaf, hmade⟩ := List.mem_filterMap.mp hurl
  obtain ⟨-, hmade⟩ := Option.ite_none_right_eq_some.mp hmade
  obtain rfl := Option.some.inj hmade
  exact ⟨place, leaf, rfl, rfl, tree.leadsTo_of_mem_leaves context place leaf hleaf⟩

theorem LeadsBack.of_label_eq {tree : Tree} {context : String} {url other : Url}
    (he : other.label = url.label) (h : tree.LeadsBack context url) :
    tree.LeadsBack context other := by
  obtain ⟨place, leaf, hcontext, hvalue, hleads⟩ := h
  obtain ⟨hsame, hrest⟩ := Prod.mk.inj he
  exact ⟨place, leaf, (Prod.mk.inj hrest).2.trans hcontext, hsame.trans hvalue, hleads⟩

-- Of a map of texts, flat lists and other trees, the references are those of the whole tree, but
-- for the numbers of those that stand in a list behind an item that is no text: they are counted
-- among the texts. So the two agree exactly if there are none of these, and then every context
-- leads back to its text.
theorem labels_referencesOf_eq_iff (context : String) (entries : List (String × Tree))
    (hflat : HoldsFlatLists entries) :
    (referencesOf context entries).map Url.label =
      (references context (map (entries.map fun entry => (entry.1, entry.2.textsOnly)))).map
        Url.label ∧
    ((referencesOf context entries).map Url.label =
        (references context (map entries)).map Url.label ↔ KeepsReferencesInFront entries) ∧
    (KeepsReferencesInFront entries →
      ∀ url ∈ referencesOf context entries, (map entries).LeadsBack context url) := by
  have hiff : (referencesOf context entries).map Url.label =
      (references context (map entries)).map Url.label ↔ KeepsReferencesInFront entries := by
    rw [labels_referencesOf, labels_references_map, flatMap_eq_flatMap_iff _ _ _ fun entry hentry =>
      length_labels_textsOnly _ entry.2 (hflat entry hentry)]
    exact forall₂_congr fun entry hentry => labels_textsOnly_eq_iff _ entry.2 (hflat entry hentry)
  refine ⟨?_, hiff, fun hfront url hurl => ?_⟩
  · rw [labels_referencesOf, labels_references_map, List.flatMap_map]
  · have hlabel := List.mem_map_of_mem (f := Url.label) hurl
    rw [hiff.mpr hfront] at hlabel
    obtain ⟨same, hsame, he⟩ := List.mem_map.mp hlabel
    exact (leadsBack_of_mem_references (map entries) context same hsame).of_label_eq he.symm

theorem labels_referencesOf_eq_iff_mixed :
    let entries : List (String × Tree) := [
      ("home", text "https://a.com"),
      ("links", list [text "/abs", number (.whole 3), text "x"]),
      ("nested", map [("k", list [null, text " ftp://f.net "])])]
    HoldsFlatLists entries ∧ KeepsReferencesInFront entries ∧
    (referencesOf "object" entries).map Url.label =
      (references "object" (map entries)).map Url.label ∧
    ∀ url ∈ referencesOf "object" entries, (map entries).LeadsBack "object" url := by
  intro entries
  have hflat : HoldsFlatLists entries := by decide
  have hfront : KeepsReferencesInFront entries := by decide
  have h := labels_referencesOf_eq_iff "object" entries hflat
  exact ⟨hflat, hfront, h.2.1.mpr hfront, h.2.2 hfront⟩

-- Behind a number a reference is given the number of the item in front of it, and no text is met
-- there.
theorem reference_misplaced_behind_number :
    let entries : List (String × Tree) := [("l", list [number (.whole 1), text "/a"])]
    HoldsFlatLists entries ∧
    (referencesOf "object" entries).map Url.label =
      [("/a", some "absolute-path", some "object.l[0]")] ∧
    (references "object" (map entries)).map Url.label =
      [("/a", some "absolute-path", some "object.l[1]")] ∧
    ∀ leaf, ¬ (map entries).LeadsTo "object" "object.l[0]" (text leaf) := by
  intro entries
  refine ⟨by decide, by decide, by decide, fun leaf hleads => ?_⟩
  obtain ⟨_, _, hentry, hleads⟩ := (leadsTo_map_iff entries).mp hleads
  cases List.mem_singleton.mp hentry
  obtain ⟨index, item, hitem, hleads⟩ := (leadsTo_list_iff _).mp hleads
  match index with
  | 0 =>
      cases hitem
      nomatch hleads
  | 1 =>
      cases hitem
      exact absurd ((leadsTo_text_iff _).mp hleads).2 (by decide)
  | index + 2 => cases hitem

end Tree

end UrlHarvest
