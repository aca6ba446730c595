import UrlHarvest.CommandLine.Run
import UrlHarvest.Proofs.Tidy.Lines

namespace UrlHarvest.CommandLine

open Tidy (deduped sorted linesOf dedupeLines sortLines repeatedCount)

-- What is asked for: to clean up a file with the given content and to write the result to a
-- target that can be written.
structure CleanUp (workspace : Workspace) (words : Words) (bytes : List UInt8)
    (target : FilePath) : Prop where
  reads : (onlyFile workspace words).map Prod.snd = .ok bytes
  names : (words.valueOf? ["-o", "--output"]).map (FilePath.ofText ·.toList) = some target
  writable : workspace.outputFault? target = none

-- The command succeeds, writes one file, and tells one line.
def Writes (result : Except Fault Outcome) (target : FilePath) (bytes : List UInt8)
    (told : String) : Prop :=
  ∃ text, Text.Utf8.encode text.toList = bytes ∧
    result = .ok { notices := [.line told], written := [(target, text)] }

def removedLine (removed remaining : Nat) : String :=
  "Removed " ++ toString removed ++ " duplicate URLs (" ++ toString remaining ++ " remaining)"

def sortedLine (count : Nat) (order : LineOrder) : String :=
  "Sorted " ++ toString count ++ " URLs (" ++ order.tag ++ ")"

variable {workspace : Workspace} {words : Words} {bytes : List UInt8} {target : FilePath}

theorem CleanUp.exists_onlyFile (h : CleanUp workspace words bytes target) :
    ∃ path, onlyFile workspace words = .ok (path, bytes) := by
  have hreads := h.reads
  cases hfile : onlyFile workspace words with
  | error fault =>
      rw [hfile] at hreads
      cases hreads
  | ok file =>
      rw [hfile] at hreads
      obtain ⟨path, content⟩ := file
      cases hreads
      exact ⟨path, rfl⟩

theorem CleanUp.writes_cleaned (h : CleanUp workspace words bytes target) (lines : List String)
    (told : String) :
    Writes (cleaned workspace words lines told) target (Tidy.contentOf lines) told := by
  obtain ⟨text, htext, rfl⟩ := Option.map_eq_some_iff.mp h.names
  refine ⟨Tidy.joined lines, rfl, ?_⟩
  simp only [cleaned, htext, h.writable]

-- Whoever asks for repeated lines to be removed from a file with the content `bytes` finds
-- `result` in the target, and is told how many lines were removed.
def Dedupes (bytes result : List UInt8) (removed : Nat) : Prop :=
  ∀ workspace settings words target, CleanUp workspace words bytes target →
    ∃ remaining, Writes (runCommand workspace settings words .dedupe) target result
      (removedLine removed remaining)

def Sorts (order : LineOrder) (bytes result : List UInt8) : Prop :=
  ∀ workspace settings words target, CleanUp workspace words bytes target →
    orderOf words = .ok order →
      ∃ count, Writes (runCommand workspace settings words .sort) target result
        (sortedLine count order)

theorem dedupes_deduped (bytes : List UInt8) :
    Dedupes bytes (deduped bytes) (repeatedCount (linesOf bytes)) := by
  intro workspace settings words target h
  obtain ⟨path, hfile⟩ := h.exists_onlyFile
  refine ⟨(dedupeLines (linesOf bytes)).length, ?_⟩
  rw [runCommand, hfile]
  exact h.writes_cleaned _ _

theorem sorts_sorted (order : LineOrder) (bytes : List UInt8) :
    Sorts order bytes (sorted order bytes) := by
  intro workspace settings words target h horder
  obtain ⟨path, hfile⟩ := h.exists_onlyFile
  refine ⟨(sortLines order (linesOf bytes)).length, ?_⟩
  rw [runCommand, horder, hfile]
  exact h.writes_cleaned _ _

-- A file that is cleaned up twice is as after the first time, it does not matter which of the two
-- commands comes first, and nothing is left to remove once repeated lines are gone.
theorem clean_ups_settle_and_commute (order : LineOrder) (bytes : List UInt8) :
    Dedupes bytes (deduped bytes) (repeatedCount (linesOf bytes)) ∧
      Sorts order bytes (sorted order bytes) ∧
      deduped (deduped bytes) = deduped bytes ∧
      sorted order (sorted order bytes) = sorted order bytes ∧
      sorted order (deduped bytes) = deduped (sorted order bytes) ∧
      Dedupes (deduped bytes) (deduped bytes) 0 ∧
      Dedupes (sorted order (deduped bytes)) (sorted order (deduped bytes)) 0 := by
  have honce := dedupes_deduped (deduped bytes)
  have hboth := dedupes_deduped (sorted order (deduped bytes))
  rw [Tidy.repeatedCount_deduped, Tidy.deduped_deduped] at honce
  rw [Tidy.repeatedCount_sorted_deduped, ← Tidy.sorted_deduped, Tidy.deduped_deduped] at hboth
  exact ⟨dedupes_deduped bytes, sorts_sorted order bytes, Tidy.deduped_deduped bytes,
    Tidy.sorted_sorted order bytes, Tidy.sorted_deduped order bytes, honce, hboth⟩

-- Any content can be asked to be cleaned up in any order.
def workspaceWith (bytes : List UInt8) : Workspace where
  directory := ⟨[], []⟩
  userSettings := ⟨[], ["settings".toList]⟩
  entries := [(⟨[], ["in".toList]⟩, .file bytes)]
  clock := .whole 0

def wordsFor (order : LineOrder) : Words where
  options := [("-o", some "out"), ("--order", some order.tag)]
  others := ["in"]

theorem cleanUp_workspaceWith (bytes : List UInt8) (order : LineOrder) :
    CleanUp (workspaceWith bytes) (wordsFor order) bytes ⟨[], ["out".toList]⟩ where
  reads := rfl
  names := rfl
  writable := rfl

theorem orderOf_wordsFor (order : LineOrder) : orderOf (wordsFor order) = .ok order := by
  cases order <;> rfl

-- A repeated line, a blank one, a carriage return, and a byte that is no text.
def untidy : List UInt8 :=
  Text.Utf8.encode " b\r\na\n\nb".toList ++ [0xFF, 0x0A] ++ Text.Utf8.encode "a".toList

def tidyOnce : List UInt8 :=
  Text.Utf8.encode "b\na\nb\uFFFD".toList

theorem deduped_untidy : deduped untidy = tidyOnce := by
  rw [deduped, Tidy.dedupeLines_eq_firsts]
  decide

theorem repeatedCount_untidy : repeatedCount (linesOf untidy) = 1 := by
  rw [repeatedCount, Tidy.dedupeLines_eq_firsts]
  decide

theorem clean_ups_settle_and_commute_untidy :
    (∃ remaining, Writes (runCommand (workspaceWith untidy) {} (wordsFor .longestFirst) .dedupe)
        ⟨[], ["out".toList]⟩ tidyOnce (removedLine 1 remaining)) ∧
      (∃ count, Writes (runCommand (workspaceWith untidy) {} (wordsFor .longestFirst) .sort)
        ⟨[], ["out".toList]⟩ (sorted .longestFirst untidy) (sortedLine count .longestFirst)) ∧
      sorted .longestFirst tidyOnce = deduped (sorted .longestFirst untidy) ∧
      ∃ remaining, Writes
        (runCommand (workspaceWith tidyOnce) {} (wordsFor .longestFirst) .dedupe)
        ⟨[], ["out".toList]⟩ tidyOnce (removedLine 0 remaining) := by
  obtain ⟨hdedupe, hsort, -, -, hcommute, honce, -⟩ :=
    clean_ups_settle_and_commute .longestFirst untidy
  rw [deduped_untidy] at hdedupe hcommute honce
  rw [repeatedCount_untidy] at hdedupe
  have hasked := cleanUp_workspaceWith untidy .longestFirst
  exact ⟨hdedupe _ _ _ _ hasked, hsort _ _ _ _ hasked (orderOf_wordsFor _), hcommute,
    honce _ _ _ _ (cleanUp_workspaceWith tidyOnce .longestFirst)⟩

end UrlHarvest.CommandLine
