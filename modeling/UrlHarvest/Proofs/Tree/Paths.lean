import Mathlib.Data.List.Forall2
import Mathlib.Data.List.Nodup
import UrlHarvest.Proofs.Tree.Collect

namespace UrlHarvest

namespace Text

theorem isAsciiDigit_of_mem_repr {n : Nat} {c : Char} (hc : c ∈ (Nat.repr n).toList) :
    isAsciiDigit c = true := by
  rw [Nat.toList_repr] at hc
  exact Nat.isDigit_of_mem_toDigits (by decide) (by decide) hc

theorem digitsValue_repr (n : Nat) : digitsValue (Nat.repr n).toList = n := by
  rw [Nat.toList_repr]
  exact Nat.ofDigitChars_toDigits (by decide) (by decide)

end Text

namespace Tree

-- One step down a tree, to an entry of a map or to an item of a list.
inductive Step
  | key (name : String)
  | index (place : Nat)
deriving Repr, DecidableEq

namespace Step

def under (path : String) : Step → String
  | key name => underKey path name
  | index place => underIndex path place

def isMark (c : Char) : Bool :=
  c == '.' || c == '['

-- A step as it is written in a path: its mark, and what follows it up to the next mark.
def written : Step → Char × Text
  | key name => ('.', name.toList)
  | index place => ('[', (Nat.repr place).toList ++ [']'])

-- A key may hold anything but the marks of the steps.
def isReadable : Step → Bool
  | key name => name.toList.all (!isMark ·)
  | index _ => true

-- A dot stands in front of a key, and an index is a decimal between brackets.
def read? : Char × Text → Option Step
  | (mark, body) =>
    if mark = '.' then some (key (String.ofList body))
    else
      let digits := body.dropLast
      if body = digits ++ [']'] ∧ digits ≠ [] ∧ digits.all Text.isAsciiDigit then
        some (index (Text.digitsValue digits))
      else none

-- What stands in front of the first mark, and each mark with what follows it.
def cut : Text → Text × List (Char × Text)
  | [] => ([], [])
  | c :: rest =>
    if isMark c then ([], (c, (cut rest).1) :: (cut rest).2)
    else (c :: (cut rest).1, (cut rest).2)

-- The steps that are written in a text, if it is made of steps alone.
def readAll? (text : Text) : Option (List Step) :=
  if (cut text).1 = [] then (cut text).2.mapM read? else none

end Step

-- The steps behind the start of a path.
def way? (start path : String) : Option (List Step) :=
  if start.toList <+: path.toList then Step.readAll? (path.toList.drop start.toList.length)
  else none

def child? : Tree → Step → Option Tree
  | map entries, .key name => entries.lookup name
  | list items, .index place => items[place]?
  | _, _ => none

def below? : Tree → List Step → Option Tree
  | tree, [] => some tree
  | tree, step :: steps => (tree.child? step).bind (below? · steps)

-- What stands right below a tree, in document order. Every item has its index, whatever it is.
def children : Tree → List (Step × Tree)
  | map entries => entries.map fun entry => (.key entry.1, entry.2)
  | list items => items.zipIdx.map fun item => (.index item.2, item.1)
  | null | bool _ | number _ | moment | text _ => []

-- The document order of the places below a tree: the first steps that differ tell.
def Precedes : Tree → List Step → List Step → Prop
  | tree, step :: steps, other :: others =>
    (tree.children.map Prod.fst).idxOf step < (tree.children.map Prod.fst).idxOf other ∨
      step = other ∧ ∃ child, tree.child? step = some child ∧ Precedes child steps others
  | _, _, _ => False

-- In every map the keys are distinct, and none of them holds the mark of a step.
inductive HasReadableKeys : Tree → Prop
  | intro {tree : Tree} : tree.keys.Nodup → (∀ key ∈ tree.keys, (Step.key key).isReadable = true) →
      (∀ child ∈ tree.children, HasReadableKeys child.2) → HasReadableKeys tree

mutual

-- The steps to every text in a tree, in the order of a walk.
def ways : Tree → List (List Step × String)
  | text value => [([], value)]
  | list items => waysOfItems 0 items
  | map entries => waysOfEntries entries
  | null | bool _ | number _ | moment => []
termination_by structural tree => tree

def waysOfItems (index : Nat) : List Tree → List (List Step × String)
  | [] => []
  | item :: rest =>
    (ways item).map (Prod.map (.index index :: ·) id) ++ waysOfItems (index + 1) rest
termination_by structural items => items

def waysOfEntries : List (String × Tree) → List (List Step × String)
  | [] => []
  | (key, value) :: rest =>
    (ways value).map (Prod.map (.key key :: ·) id) ++ waysOfEntries rest
termination_by structural entries => entries

end

theorem waysOfItems_eq_flatMap (start : Nat) (items : List Tree) :
    waysOfItems start items = (items.zipIdx start).flatMap fun item =>
      (ways item.1).map (Prod.map (.index item.2 :: ·) id) := by
  induction items generalizing start with
  | nil => rfl
  | cons item rest ih => rw [waysOfItems, ih, List.zipIdx_cons, List.flatMap_cons]

theorem waysOfEntries_eq_flatMap (entries : List (String × Tree)) :
    waysOfEntries entries = entries.flatMap fun entry =>
      (ways entry.2).map (Prod.map (.key entry.1 :: ·) id) := by
  induction entries with
  | nil => rfl
  | cons entry rest ih => rw [waysOfEntries, ih, List.flatMap_cons]

theorem sizeOf_lt_of_mem_children {tree : Tree} {child : Step × Tree}
    (h : child ∈ tree.children) : sizeOf child.2 < sizeOf tree := by
  cases tree with
  | list items =>
      obtain ⟨item, hitem, rfl⟩ := List.mem_map.mp h
      have hmem := List.sizeOf_lt_of_mem (List.fst_mem_of_mem_zipIdx hitem)
      simp only [list.sizeOf_spec]
      omega
  | map entries =>
      obtain ⟨⟨key, value⟩, hentry, rfl⟩ := List.mem_map.mp h
      have hmem := List.sizeOf_lt_of_mem hentry
      simp only [map.sizeOf_spec, Prod.mk.sizeOf_spec] at hmem ⊢
      omega
  | null | bool | number | moment | text => cases h

-- What holds of a tree as soon as it holds of all that stands right below it holds of every tree.
theorem induction_on_children {motive : Tree → Prop}
    (step : ∀ tree : Tree, (∀ child ∈ tree.children, motive child.2) → motive tree)
    (tree : Tree) : motive tree :=
  step tree fun child _ => induction_on_children step child.2
termination_by tree
decreasing_by exact sizeOf_lt_of_mem_children ‹_›

section Children

variable (tree : Tree) (hleaf : tree.isText = false)
include hleaf

theorem leaves_eq_flatMap_children (path : String) :
    tree.leaves path = tree.children.flatMap fun child => leaves (child.1.under path) child.2 := by
  cases tree with
  | list items =>
      rw [leaves, leavesOfItems_eq_flatMap, children, List.flatMap_map]
      rfl
  | map entries =>
      rw [leaves, leavesOfEntries_eq_flatMap, children, List.flatMap_map]
      rfl
  | text value => cases hleaf
  | null | bool | number | moment => rfl

theorem ways_eq_flatMap_children :
    tree.ways = tree.children.flatMap fun child =>
      (ways child.2).map (Prod.map (child.1 :: ·) id) := by
  cases tree with
  | list items => rw [ways, waysOfItems_eq_flatMap, children, List.flatMap_map]
  | map entries => rw [ways, waysOfEntries_eq_flatMap, children, List.flatMap_map]
  | text value => cases hleaf
  | null | bool | number | moment => rfl

end Children

-- A walk writes down the steps that it takes.
theorem leaves_eq_map_ways (tree : Tree) (path : String) :
    tree.leaves path = tree.ways.map fun way => (way.1.foldl Step.under path, way.2) := by
  induction tree using induction_on_children generalizing path with
  | step tree ih =>
      cases hleaf : tree.isText with
      | true =>
          cases tree with
          | text value => rfl
          | _ => cases hleaf
      | false =>
          rw [tree.leaves_eq_flatMap_children hleaf, tree.ways_eq_flatMap_children hleaf,
            List.map_flatMap]
          refine List.flatMap_congr fun child hchild => ?_
          rw [ih child hchild, List.map_map]
          rfl

namespace Step

theorem isMark_written (step : Step) : isMark step.written.1 = true := by
  cases step <;> rfl

theorem isMark_of_isAsciiDigit {c : Char} (h : Text.isAsciiDigit c = true) : isMark c = false := by
  rw [isMark, Bool.or_eq_false_iff, beq_eq_false_iff_ne, beq_eq_false_iff_ne]
  constructor <;> (rintro rfl; cases h)

theorem isMark_of_mem_written {step : Step} (h : step.isReadable = true) (c : Char)
    (hc : c ∈ step.written.2) : isMark c = false := by
  cases step with
  | key name => exact Bool.not_eq_true' _ |>.mp (List.all_eq_true.mp h c hc)
  | index place =>
      rcases List.mem_append.mp hc with hdigit | hbracket
      · exact isMark_of_isAsciiDigit (Text.isAsciiDigit_of_mem_repr hdigit)
      · cases List.mem_singleton.mp hbracket
        rfl

theorem read?_written (step : Step) : read? step.written = some step := by
  cases step with
  | key name => simp [written, read?]
  | index place =>
      have hne : (Nat.repr place).toList ≠ [] := by
        rw [Nat.toList_repr]
        exact Nat.toDigits_ne_nil
      have hall : (Nat.repr place).toList.all Text.isAsciiDigit = true :=
        List.all_eq_true.mpr fun c hc => Text.isAsciiDigit_of_mem_repr hc
      simp only [written, read?, List.dropLast_concat]
      rw [if_neg (by decide), if_pos ⟨trivial, hne, hall⟩, Text.digitsValue_repr]

theorem cut_append (body rest : Text) (hbody : ∀ c ∈ body, isMark c = false) :
    cut (body ++ rest) = (body ++ (cut rest).1, (cut rest).2) := by
  induction body with
  | nil => rfl
  | cons c body ih =>
      obtain ⟨hc, hbody⟩ := List.forall_mem_cons.mp hbody
      rw [List.cons_append, cut, hc, if_neg Bool.false_ne_true, ih hbody]
      rfl

-- Steps as they are written one behind another.
def text (steps : List Step) : Text :=
  steps.flatMap fun step => step.written.1 :: step.written.2

theorem cut_text (steps : List Step) (h : ∀ step ∈ steps, step.isReadable = true) :
    cut (text steps) = ([], steps.map written) := by
  induction steps with
  | nil => rfl
  | cons step steps ih =>
      obtain ⟨hstep, hsteps⟩ := List.forall_mem_cons.mp h
      rw [text, List.flatMap_cons, List.cons_append, ← text, cut, isMark_written, if_pos rfl,
        cut_append _ _ (isMark_of_mem_written hstep), ih hsteps, List.append_nil]
      rfl

theorem readAll?_text (steps : List Step) (h : ∀ step ∈ steps, step.isReadable = true) :
    readAll? (text steps) = some steps := by
  rw [readAll?, cut_text steps h, if_pos rfl]
  clear h
  induction steps with
  | nil => rfl
  | cons step steps ih => simp [read?_written, ih]

theorem toList_under (path : String) (step : Step) :
    (step.under path).toList = path.toList ++ step.written.1 :: step.written.2 := by
  cases step <;> simp [under, underKey, underIndex, written]

theorem toList_foldl_under (path : String) (steps : List Step) :
    (steps.foldl under path).toList = path.toList ++ text steps := by
  induction steps generalizing path with
  | nil => simp [text]
  | cons step steps ih =>
      rw [List.foldl_cons, ih, toList_under, List.append_assoc]
      rfl

end Step

theorem way?_foldl_under (start : String) (steps : List Step)
    (h : ∀ step ∈ steps, step.isReadable = true) :
    way? start (steps.foldl Step.under start) = some steps := by
  rw [way?, Step.toList_foldl_under, if_pos (List.prefix_append _ _), List.drop_left]
  exact Step.readAll?_text steps h

theorem HasReadableKeys.leaf {tree : Tree} (hchildren : tree.children = [])
    (hkeys : tree.keys = []) : tree.HasReadableKeys :=
  .intro (hkeys ▸ .nil) (by simp [hkeys]) (by simp [hchildren])

theorem HasReadableKeys.nodup_keys {tree : Tree} (h : tree.HasReadableKeys) : tree.keys.Nodup := by
  obtain ⟨hkeys, -, -⟩ := h
  exact hkeys

theorem HasReadableKeys.isReadable {tree : Tree} (h : tree.HasReadableKeys) (step : Step)
    (child : Tree) (hchild : (step, child) ∈ tree.children) :
    step.isReadable = true ∧ child.HasReadableKeys := by
  obtain ⟨-, hkeys, hbelow⟩ := h
  refine ⟨?_, hbelow _ hchild⟩
  cases tree with
  | list items =>
      obtain ⟨item, -, he⟩ := List.mem_map.mp hchild
      cases he
      rfl
  | map entries =>
      obtain ⟨entry, hentry, he⟩ := List.mem_map.mp hchild
      cases he
      exact hkeys entry.1 (List.mem_map_of_mem hentry)
  | null | bool | number | moment | text => cases hchild

theorem child?_eq_some_iff {tree : Tree} (hkeys : tree.keys.Nodup) (step : Step) (child : Tree) :
    tree.child? step = some child ↔ (step, child) ∈ tree.children := by
  cases tree with
  | list items =>
      cases step with
      | key name => simp [child?, children]
      | index place => simp [child?, children, List.mem_zipIdx_iff_getElem?]
  | map entries =>
      cases step with
      | key name =>
          rw [child?, Entries.lookup_eq_some_iff_mem entries name child hkeys]
          simp [children]
      | index place => simp [child?, children]
  | null | bool | number | moment | text => simp [child?, children]

theorem nodup_children {tree : Tree} (hkeys : tree.keys.Nodup) :
    (tree.children.map Prod.fst).Nodup := by
  cases tree with
  | list items =>
      have hindexes : (items.zipIdx.map Prod.snd).Nodup := by
        rw [List.zipIdx_map_snd]
        exact List.nodup_range'
      have hmap := List.Nodup.map (fun _ _ h => Step.index.inj h) hindexes
      rw [List.map_map] at hmap
      rwa [children, List.map_map]
  | map entries =>
      have hmap := List.Nodup.map (fun _ _ h => Step.key.inj h) hkeys
      rw [keys, List.map_map] at hmap
      rwa [children, List.map_map]
  | null | bool | number | moment | text => exact .nil

theorem mem_ways_iff (tree : Tree) (way : List Step) (value : String) :
    (way, value) ∈ tree.ways ↔
      way = [] ∧ tree = text value ∨
        ∃ step steps child, way = step :: steps ∧ (step, child) ∈ tree.children ∧
          (steps, value) ∈ child.ways := by
  cases hleaf : tree.isText with
  | true =>
      cases tree with
      | text leaf => simp [ways, children, eq_comm]
      | _ => cases hleaf
  | false =>
      rw [tree.ways_eq_flatMap_children hleaf]
      constructor
      · intro hway
        obtain ⟨⟨step, child⟩, hchild, hway⟩ := List.mem_flatMap.mp hway
        obtain ⟨⟨steps, leaf⟩, hsteps, he⟩ := List.mem_map.mp hway
        cases he
        exact .inr ⟨step, steps, child, rfl, hchild, hsteps⟩
      · rintro (⟨-, rfl⟩ | ⟨step, steps, child, rfl, hchild, hsteps⟩)
        · cases hleaf
        · exact List.mem_flatMap.mpr
            ⟨(step, child), hchild, List.mem_map.mpr ⟨(steps, value), hsteps, rfl⟩⟩

theorem mem_ways_cons_iff (tree : Tree) (step : Step) (steps : List Step) (value : String) :
    (step :: steps, value) ∈ tree.ways ↔
      ∃ child, (step, child) ∈ tree.children ∧ (steps, value) ∈ child.ways := by
  rw [mem_ways_iff]
  constructor
  · rintro (⟨hnil, -⟩ | ⟨_, _, child, he, hchild, hsteps⟩)
    · cases hnil
    · cases he
      exact ⟨child, hchild, hsteps⟩
  · rintro ⟨child, hchild, hsteps⟩
    exact .inr ⟨step, steps, child, rfl, hchild, hsteps⟩

theorem mem_ways_iff_below? {tree : Tree} (h : tree.HasReadableKeys) (way : List Step)
    (value : String) : (way, value) ∈ tree.ways ↔ tree.below? way = some (text value) := by
  induction way generalizing tree with
  | nil =>
      rw [mem_ways_iff, below?, Option.some.injEq]
      simp
  | cons step steps ih =>
      rw [mem_ways_cons_iff, below?, Option.bind_eq_some_iff]
      refine exists_congr fun child => ?_
      rw [child?_eq_some_iff h.nodup_keys]
      exact and_congr_right fun hchild => ih (h.isReadable step child hchild).2

theorem isReadable_of_mem_ways {tree : Tree} (h : tree.HasReadableKeys) (way : List Step)
    (value : String) (hway : (way, value) ∈ tree.ways) : ∀ step ∈ way, step.isReadable = true := by
  induction way generalizing tree with
  | nil => simp
  | cons step steps ih =>
      obtain ⟨child, hchild, hsteps⟩ := (mem_ways_cons_iff tree step steps value).mp hway
      obtain ⟨hstep, hbelow⟩ := h.isReadable step child hchild
      exact List.forall_mem_cons.mpr ⟨hstep, ih hbelow hsteps⟩

theorem not_precedes_self (tree : Tree) (way : List Step) : ¬ tree.Precedes way way := by
  induction way generalizing tree with
  | nil => exact id
  | cons step steps ih =>
      rintro (hlt | ⟨-, child, -, hbelow⟩)
      · exact absurd hlt (Nat.lt_irrefl _)
      · exact ih child hbelow

theorem pairwise_precedes_ways {tree : Tree} (h : tree.HasReadableKeys) :
    (tree.ways.map Prod.fst).Pairwise tree.Precedes := by
  induction tree using induction_on_children with
  | step tree ih =>
      cases hleaf : tree.isText with
      | true =>
          cases tree with
          | text value => exact List.pairwise_singleton _ _
          | _ => cases hleaf
      | false =>
          have hfirsts := Tidy.pairwise_idxOf_firsts (tree.children.map Prod.fst)
          rw [Tidy.firsts_of_nodup id _ (by simpa using nodup_children h.nodup_keys)] at hfirsts
          have horder := List.pairwise_map.mp hfirsts
          rw [tree.ways_eq_flatMap_children hleaf, List.map_flatMap, List.pairwise_flatMap]
          constructor
          · intro child hchild
            have hbelow := ih child hchild (h.isReadable child.1 child.2 hchild).2
            have hstep := (child?_eq_some_iff h.nodup_keys child.1 child.2).mpr hchild
            rw [List.pairwise_map] at hbelow
            rw [List.map_map, List.pairwise_map]
            exact hbelow.imp fun hway => .inr ⟨rfl, child.2, hstep, hway⟩
          · refine horder.imp fun hlt way hway other hother => ?_
            rw [List.map_map, List.mem_map] at hway hother
            obtain ⟨way, -, rfl⟩ := hway
            obtain ⟨other, -, rfl⟩ := hother
            exact .inl hlt

-- A path leads back to the text that it was given with. Whatever the walk starts with, its pairs
-- stand for the texts of the tree, one for each of them and in document order: what is read off a
-- path behind the start leads from the root to the text of the pair. So no path is given twice.
theorem paths_identify_texts (tree : Tree) (start : String) (h : tree.HasReadableKeys) :
    ∃ ways : List (List Step),
      (∀ way, way ∈ ways ↔ ∃ value, tree.below? way = some (text value)) ∧
      ways.Pairwise tree.Precedes ∧
      List.Forall₂ (fun leaf way =>
        way? start leaf.1 = some way ∧ tree.below? way = some (text leaf.2))
        (tree.leaves start) ways ∧
      ((tree.leaves start).map Prod.fst).Nodup := by
  have hreads : ∀ way ∈ tree.ways, way? start (way.1.foldl Step.under start) = some way.1 :=
    fun way hway => way?_foldl_under start way.1 (isReadable_of_mem_ways h way.1 way.2 hway)
  have hordered := pairwise_precedes_ways h
  refine ⟨tree.ways.map Prod.fst, fun way => ?_, hordered, ?_, ?_⟩
  · simp only [← mem_ways_iff_below? h, List.mem_map, Prod.exists, exists_and_right,
      exists_eq_right]
  · rw [leaves_eq_map_ways, List.forall₂_map_left_iff, List.forall₂_map_right_iff,
      List.forall₂_same]
    exact fun way hway => ⟨hreads way hway, (mem_ways_iff_below? h way.1 way.2).mp hway⟩
  · rw [leaves_eq_map_ways, List.map_map, List.Nodup, List.pairwise_map]
    refine (List.pairwise_map.mp hordered).imp_of_mem fun {way other} hway hother hlt he => ?_
    have hsame : some way.1 = some other.1 := by
      rw [← hreads way hway, ← hreads other hother]
      exact congrArg (way? start) he
    rw [Option.some.inj hsame] at hlt
    exact not_precedes_self tree _ hlt

-- Keys may be empty, or look like the end of an index. What is passed over is counted.
theorem paths_identify_texts_mixed :
    let inner := map [("0]", text "y"), ("", text "x")]
    let tree := map [("", list [null, text "x", inner]), ("a", number (.whole 7))]
    tree.HasReadableKeys ∧
    tree.leaves "r[0]." =
      [("r[0]..[1]", "x"), ("r[0]..[2].0]", "y"), ("r[0]..[2].", "x")] ∧
    way? "r[0]." "r[0]..[2].0]" = some [.key "", .index 2, .key "0]"] ∧
    ∃ ways, ways.Pairwise tree.Precedes ∧
      List.Forall₂ (fun leaf way =>
        way? "r[0]." leaf.1 = some way ∧ tree.below? way = some (text leaf.2))
        (tree.leaves "r[0].") ways := by
  intro inner tree
  have hinner : inner.HasReadableKeys := by
    refine .intro (by decide) (by decide) (List.forall_mem_cons.mpr ⟨.leaf rfl rfl, ?_⟩)
    exact List.forall_mem_singleton.mpr (.leaf rfl rfl)
  have hitems : HasReadableKeys (list [null, text "x", inner]) := by
    refine .intro (by decide) (by decide) (List.forall_mem_cons.mpr ⟨.leaf rfl rfl, ?_⟩)
    exact List.forall_mem_cons.mpr ⟨.leaf rfl rfl, List.forall_mem_singleton.mpr hinner⟩
  have hkeys : tree.HasReadableKeys := by
    refine .intro (by decide) (by decide) (List.forall_mem_cons.mpr ⟨hitems, ?_⟩)
    exact List.forall_mem_singleton.mpr (.leaf rfl rfl)
  obtain ⟨ways, -, hordered, hleaves, -⟩ := paths_identify_texts tree "r[0]." hkeys
  exact ⟨hkeys, by decide, by decide, ways, hordered, hleaves⟩

end Tree

end UrlHarvest
