import Derp.Library.Fields
import Derp.Rewrite.Builder

/-!
# The site table of a rewritten program

The hooked sites are kept next to a rewritten program as text, one to a line: where the
trampoline returns to, the instruction, and of what kind it is.  What is printed is read
back, and a line that is none of these is skipped.
-/

namespace Derp

namespace Rewrite

open Text (hexadecimal parseHexadecimal)

namespace SiteKind

def name : SiteKind → Text
  | .branch => "branch".toList
  | .call => "call".toList
  | .load => "load".toList
  | .store => "store".toList
  | .counter => "counter".toList

def fromName (name : Text) : Option SiteKind :=
  [branch, call, load, store, counter].find? fun kind => kind.name = name

theorem fromName_name (kind : SiteKind) : fromName kind.name = some kind := by
  cases kind <;> decide

/-- A name is letters. -/
theorem notMem_name {c : Char} (other : c.isLower = false) (kind : SiteKind) :
    c ∉ kind.name := by
  have letters : kind.name.all Char.isLower = true := by
    cases kind <;> rfl
  exact fun present =>
    Bool.false_ne_true (other.symm.trans (List.all_eq_true.1 letters c present))

theorem name_ne_nil (kind : SiteKind) : kind.name ≠ [] := by
  cases kind <;> decide

end SiteKind

namespace Site

def line (site : Site) : Text :=
  hexadecimal site.yieldPc ++ ' ' :: (hexadecimal site.addr ++ ' ' :: site.kind.name)

def ofLine (line : Text) : Option Site :=
  match line.splitOn ' ' with
  | yieldPc :: addr :: kind :: _ => do
      let yieldPc ← parseHexadecimal 64 yieldPc
      let addr ← parseHexadecimal 64 addr
      let kind ← SiteKind.fromName kind
      some { yieldPc, addr, kind }
  | _ => none

/-- The addresses of a site are 64 bits wide. -/
def Fits (site : Site) : Prop := site.yieldPc < 2 ^ 64 ∧ site.addr < 2 ^ 64

instance (site : Site) : Decidable site.Fits := inferInstanceAs (Decidable (_ ∧ _))

end Site

def sitesToText (sites : List Site) : Text := sites.flatMap fun site => site.line ++ ['\n']

def sitesFromText (text : Text) : List Site := (Text.lines text).filterMap Site.ofLine

variable {site : Site} {sites : List Site}

theorem Site.isLine_line (site : Site) : Text.IsLine site.line := by
  have digits (n : Nat) : '\n' ∉ hexadecimal n := Text.notMem_hexadecimal n (by decide)
  refine ⟨?_, fun last => ?_⟩
  · simp [line, digits, SiteKind.notMem_name (show '\n'.isLower = false by decide)]
  · have present : '\r' ∈ site.kind.name := by
      unfold line at last
      rw [List.getLast?_append_cons, List.getLast?_cons, List.getLast?_append_cons,
        List.getLast?_cons, List.getLast?_eq_some_getLast site.kind.name_ne_nil] at last
      obtain isLast := Option.some.inj last
      exact isLast ▸ List.getLast_mem site.kind.name_ne_nil
    exact SiteKind.notMem_name (by decide) site.kind present

theorem Site.ofLine_line (fits : site.Fits) : ofLine site.line = some site := by
  have digits (n : Nat) : ' ' ∉ hexadecimal n := Text.notMem_hexadecimal n (by decide)
  have fields : site.line.splitOn ' ' =
      [hexadecimal site.yieldPc, hexadecimal site.addr, site.kind.name] := by
    unfold line
    rw [List.splitOn_append_cons_self_of_not_mem (digits _),
      List.splitOn_append_cons_self_of_not_mem (digits _),
      List.splitOn_eq_singleton (SiteKind.notMem_name (by decide) site.kind)]
  unfold ofLine
  rw [fields]
  dsimp only
  rw [Text.parseHexadecimal_hexadecimal fits.1, Text.parseHexadecimal_hexadecimal fits.2,
    SiteKind.fromName_name]
  rfl

/-- The printed table is read back whole and in order. -/
theorem sitesFromText_sitesToText (fit : ∀ site ∈ sites, site.Fits) :
    sitesFromText (sitesToText sites) = sites := by
  have printed : sitesToText sites = (sites.map Site.line).flatMap (· ++ ['\n']) := by
    unfold sitesToText
    rw [List.flatMap_map]
  unfold sitesFromText
  rw [printed, Text.lines_unlines (by simp [Site.isLine_line]), List.filterMap_map]
  calc
    sites.filterMap (Site.ofLine ∘ Site.line) = sites.filterMap some :=
      List.filterMap_congr fun site present => Site.ofLine_line (fit site present)
    _ = sites := List.filterMap_some

/-- What is read has addresses of 64 bits, whatever the text. -/
theorem fits_of_mem_sitesFromText {text : Text} (present : site ∈ sitesFromText text) :
    site.Fits := by
  obtain ⟨line, -, read⟩ := List.mem_filterMap.1 present
  unfold Site.ofLine at read
  split at read
  · simp only [Option.bind_eq_bind, Option.bind_eq_some_iff, Option.some.injEq] at read
    obtain ⟨yieldPc, isPc, addr, isAddr, kind, -, rfl⟩ := read
    exact ⟨Text.parseHexadecimal_lt isPc, Text.parseHexadecimal_lt isAddr⟩
  · cases read

end Rewrite

end Derp
