import CodeBridge.Proofs.Text.Rows
import CodeBridge.Tool.Outline

/-!
# The drawing of an outline

A drawn outline has a line for each symbol, and what stands in front of a symbol, its guides, says
how deep it is and below which line it hangs; whatever names look like, they come later.

* `listing`              the symbols of a forest in the order in which they are drawn, each with what
                         its ancestors and itself are among their siblings;
* `toList_renderLevel`   the text is the lines of the listing;
* `readGuides_guides`    guides are read back from the start of a line;
* `hangs_listing`        a symbol hangs below the nearest symbol before it that is less deep;
* `shapes_of_depths`     depths alone tell how a forest branches;
* `render_outline`       so the text of an outline tells its shape.
-/

namespace CodeBridge

/-! ## forests -/

/-- A tree without what is written at its nodes. -/
inductive Shape where
  | node (below : List Shape)

namespace DocumentSymbol

mutual

def shape : DocumentSymbol → Shape
  | ⟨_, _, _, _, _, children⟩ => .node (shapes children)

def shapes : List DocumentSymbol → List Shape
  | [] => []
  | s :: ss => shape s :: shapes ss

end

mutual

def withBelow : DocumentSymbol → List DocumentSymbol
  | s@⟨_, _, _, _, _, children⟩ => s :: preorder children

/-- The symbols of a forest, each before what is below it. -/
def preorder : List DocumentSymbol → List DocumentSymbol
  | [] => []
  | s :: ss => withBelow s ++ preorder ss

end

theorem shapes_cons (s : DocumentSymbol) (ss : List DocumentSymbol) :
    shapes (s :: ss) = .node (shapes s.children) :: shapes ss := by
  cases s
  rfl

theorem preorder_cons (s : DocumentSymbol) (ss : List DocumentSymbol) :
    preorder (s :: ss) = s :: (preorder s.children ++ preorder ss) := by
  cases s
  rfl

/-- **A forest is empty, or it has a first tree with a forest below, and other trees.** -/
theorem induction_forest {motive : List DocumentSymbol → Prop} (nil : motive [])
    (cons : ∀ s ss, motive s.children → motive ss → motive (s :: ss)) :
    (ss : List DocumentSymbol) → motive ss
  | [] => nil
  | ⟨_, _, _, _, _, children⟩ :: ss =>
    cons _ ss (induction_forest nil cons children) (induction_forest nil cons ss)

/-- Neither the name nor the detail goes over a line. -/
def OneLine (s : DocumentSymbol) : Prop :=
  '\n' ∉ s.name.toList ∧ ∀ d ∈ s.detail, '\n' ∉ d.toList

instance (s : DocumentSymbol) : Decidable s.OneLine :=
  inferInstanceAs (Decidable (_ ∧ ∀ d ∈ s.detail, '\n' ∉ d.toList))

/-- What stands behind the guides of a symbol. -/
def caption (s : DocumentSymbol) : String :=
  "[" ++ s.kind.label ++ "] " ++ s.name ++
    ((s.detail.filter (· ≠ "")).elim "" fun d => " (" ++ d ++ ")") ++
    " [line " ++ toString (toUser s.range.start).line ++ "]"

theorem label_eq_caption (s : DocumentSymbol) :
    SymbolNode.label s.kind.label s.name (s.detail.filter (· ≠ "")) (toUser s.range.start).line =
      s.caption ++ "\n" := by
  unfold SymbolNode.label caption
  refine String.toList_inj.mp ?_
  cases s.detail.filter (· ≠ "") with
  | none => simp [toString]
  | some d => simp [toString]

end DocumentSymbol

open DocumentSymbol

/-! ## listings -/

structure Outlined where
  /-- for each ancestor, the outermost first: it is the last of its siblings -/
  above : List Bool
  /-- the symbol is the last of its siblings -/
  last : Bool
  symbol : DocumentSymbol

namespace Outlined

def depth (o : Outlined) : Nat := o.above.length

/-- What stands in front of a symbol: a block for each ancestor, then the symbol's branch. -/
def guides (o : Outlined) : List Char :=
  (o.above.flatMap fun last => (SymbolNode.block last).toList) ++ (SymbolNode.branch o.last).toList

def line (o : Outlined) : List Char := o.guides ++ o.symbol.caption.toList

end Outlined

mutual

def listed (above : List Bool) (last : Bool) : DocumentSymbol → List Outlined
  | s@⟨_, _, _, _, _, children⟩ => ⟨above, last, s⟩ :: listing (above ++ [last]) children

/-- The symbols of a forest below such ancestors, each before what is below it. -/
def listing (above : List Bool) : List DocumentSymbol → List Outlined
  | [] => []
  | s :: ss => listed above ss.isEmpty s ++ listing above ss

end

theorem listing_cons (above : List Bool) (s : DocumentSymbol) (ss : List DocumentSymbol) :
    listing above (s :: ss) =
      ⟨above, ss.isEmpty, s⟩ ::
        (listing (above ++ [ss.isEmpty]) s.children ++ listing above ss) := by
  cases s
  rfl

theorem map_symbol_listing (above : List Bool) (ss : List DocumentSymbol) :
    (listing above ss).map Outlined.symbol = preorder ss := by
  induction ss using induction_forest generalizing above with
  | nil => rfl
  | cons s ss ihBelow ih =>
    rw [listing_cons, preorder_cons, List.map_cons, List.map_append, ihBelow, ih]

theorem length_le_depth {above : List Bool} {ss : List DocumentSymbol} {o : Outlined}
    (h : o ∈ listing above ss) : above.length ≤ o.depth := by
  induction ss using induction_forest generalizing above with
  | nil => cases h
  | cons s ss ihBelow ih =>
    rw [listing_cons, List.mem_cons, List.mem_append] at h
    rcases h with rfl | h | h
    · exact Nat.le_refl _
    · have := ihBelow h
      rw [List.length_append] at this
      omega
    · exact ih h

/-! ## lines -/

theorem renderLevel_ofSymbols (indent : String) (s : DocumentSymbol) (ss : List DocumentSymbol) :
    SymbolNode.renderLevel indent (SymbolNode.ofSymbols (s :: ss)) =
      indent ++ SymbolNode.branch ss.isEmpty ++ (s.caption ++ "\n") ++
        SymbolNode.renderLevel (indent ++ SymbolNode.block ss.isEmpty)
          (SymbolNode.ofSymbols s.children) ++
        SymbolNode.renderLevel indent (SymbolNode.ofSymbols ss) := by
  have hempty : (SymbolNode.ofSymbols ss).isEmpty = ss.isEmpty := by cases ss <;> rfl
  rw [← label_eq_caption, ← hempty]
  cases s
  rfl

/-- **The text of a forest is the lines of its listing.** -/
theorem toList_renderLevel {above : List Bool} {indent : String}
    (h : indent.toList = above.flatMap fun last => (SymbolNode.block last).toList)
    (ss : List DocumentSymbol) :
    (SymbolNode.renderLevel indent (SymbolNode.ofSymbols ss)).toList =
      ((listing above ss).map Outlined.line).flatMap fun line => line ++ ['\n'] := by
  induction ss using induction_forest generalizing above indent with
  | nil => rfl
  | cons s ss ihBelow ih =>
    have hindent : (indent ++ SymbolNode.block ss.isEmpty).toList =
        (above ++ [ss.isEmpty]).flatMap fun last => (SymbolNode.block last).toList := by
      rw [String.toList_append, h, List.flatMap_append, List.flatMap_singleton]
    have hline : (indent ++ SymbolNode.branch ss.isEmpty ++ (s.caption ++ "\n")).toList =
        (Outlined.mk above ss.isEmpty s).line ++ ['\n'] := by
      rw [String.toList_append, String.toList_append, String.toList_append, h, ← List.append_assoc]
      rfl
    rw [renderLevel_ofSymbols, String.toList_append, String.toList_append, hline, ihBelow hindent,
      ih h, listing_cons, List.map_cons, List.flatMap_cons, List.map_append, List.flatMap_append,
      List.append_assoc]

theorem newline_not_mem_label (k : SymbolKind) : '\n' ∉ k.label.toList := by
  cases k with
  | unknown code =>
    change '\n' ∉ "unknown".toList
    decide
  | _ => decide

theorem newline_not_mem_number (n : UInt32) : '\n' ∉ (toString n).toList := by
  intro h
  have hdigits : '\n' ∈ Nat.toDigits 10 n.toNat := by
    rw [← Nat.toList_repr]
    exact h
  have hdigit : '\n'.isDigit = true :=
    Nat.isDigit_of_mem_toDigits (by decide) (by decide) hdigits
  exact absurd hdigit (by decide)

theorem DocumentSymbol.OneLine.caption {s : DocumentSymbol} (h : s.OneLine) :
    '\n' ∉ s.caption.toList := by
  have hdetail : '\n' ∉ ((s.detail.filter (· ≠ "")).elim "" fun d => " (" ++ d ++ ")").toList := by
    cases hd : s.detail.filter (· ≠ "") with
    | none => exact nofun
    | some d =>
      have hnot := h.2 d (Option.filter_eq_some_iff.mp hd).1
      simp only [Option.elim_some, String.toList_append, List.mem_append, not_or]
      exact ⟨⟨by decide, hnot⟩, by decide⟩
  unfold DocumentSymbol.caption
  simp only [String.toList_append, List.mem_append, not_or]
  exact ⟨⟨⟨⟨⟨⟨⟨by decide, newline_not_mem_label s.kind⟩, by decide⟩, h.1⟩, hdetail⟩, by decide⟩,
    newline_not_mem_number _⟩, by decide⟩

theorem newline_not_mem_guides (o : Outlined) : '\n' ∉ o.guides := by
  unfold Outlined.guides
  rw [List.mem_append, List.mem_flatMap, not_or, not_exists]
  refine ⟨fun last h => ?_, ?_⟩
  · cases last with
    | false => exact absurd h.2 (by decide)
    | true => exact absurd h.2 (by decide)
  · cases o.last with
    | false => decide
    | true => decide

/-- A line is one line: it has no newline, and it ends in a bracket. -/
theorem line_isRow {o : Outlined} (h : o.symbol.OneLine) :
    '\n' ∉ o.line ∧ o.line.getLast? ≠ some '\r' := by
  constructor
  · rw [Outlined.line, List.mem_append, not_or]
    exact ⟨newline_not_mem_guides o, h.caption⟩
  · rw [Outlined.line, DocumentSymbol.caption, String.toList_append, ← List.append_assoc,
      List.getLast?_append]
    exact fun he => absurd (Option.some.inj he) (by decide)

/-! ## guides -/

def readGuides : List Char → Option (List Bool × Bool)
  | '│' :: ' ' :: ' ' :: ' ' :: rest =>
    (readGuides rest).map fun (above, last) => (false :: above, last)
  | ' ' :: ' ' :: ' ' :: ' ' :: rest =>
    (readGuides rest).map fun (above, last) => (true :: above, last)
  | '├' :: '─' :: '─' :: ' ' :: _ => some ([], false)
  | '└' :: '─' :: '─' :: ' ' :: _ => some ([], true)
  | _ => none

/-- **Guides are read back**, whatever comes after them. -/
theorem readGuides_guides (o : Outlined) (rest : List Char) :
    readGuides (o.guides ++ rest) = some (o.above, o.last) := by
  obtain ⟨above, last, symbol⟩ := o
  unfold Outlined.guides
  dsimp only
  induction above with
  | nil => cases last <;> rfl
  | cons first above ih =>
    rw [List.flatMap_cons, List.append_assoc, List.append_assoc, ← List.append_assoc (List.flatMap _ _)]
    cases first with
    | false => exact congrArg (Option.map fun p => (false :: p.1, p.2)) ih
    | true => exact congrArg (Option.map fun p => (true :: p.1, p.2)) ih

/-! ## what a symbol hangs below -/

/-- The nearest symbol, from the last one on, that is less deep. -/
def nearestAbove (depth : Nat) (before : List Outlined) : Option Outlined :=
  before.reverse.find? fun o => decide (o.depth < depth)

/-- The symbol is one of the siblings, and the last of them if it says so. -/
def Among (siblings : List DocumentSymbol) (o : Outlined) : Prop :=
  ∃ k, siblings[k]? = some o.symbol ∧ (o.last = true ↔ k + 1 = siblings.length)

/-- A symbol is a child of this one, or one of the roots. -/
def HangsBelow (roots : List DocumentSymbol) (parent : Option Outlined) (o : Outlined) : Prop :=
  match parent with
  | none => o.above = [] ∧ Among roots o
  | some p => o.above = p.above ++ [p.last] ∧ Among p.symbol.children o

theorem nearestAbove_append {depth : Nat} {more : List Outlined}
    (h : ∀ o ∈ more, depth ≤ o.depth) (before : List Outlined) :
    nearestAbove depth (before ++ more) = nearestAbove depth before := by
  have hnone : (more.reverse.find? fun o => decide (o.depth < depth)) = none :=
    List.find?_eq_none.mpr fun o ho => by
      rw [decide_eq_true_eq]
      exact Nat.not_lt.mpr (h o (List.mem_reverse.mp ho))
  rw [nearestAbove, List.reverse_append, List.find?_append, hnone]
  rfl

theorem nearestAbove_concat {depth : Nat} {o : Outlined} (h : o.depth < depth)
    (before : List Outlined) : nearestAbove depth (before ++ [o]) = some o := by
  rw [nearestAbove, List.reverse_concat]
  exact List.find?_cons_of_pos (decide_eq_true h)

/-- Every one of the symbols stands to those before it as `P` says. -/
def Throughout (P : List Outlined → Outlined → Prop) (before : List Outlined) :
    List Outlined → Prop
  | [] => True
  | o :: os => P before o ∧ Throughout P (before ++ [o]) os

theorem throughout_append {P : List Outlined → Outlined → Prop} {a b before : List Outlined}
    (ha : Throughout P before a) (hb : Throughout P (before ++ a) b) :
    Throughout P before (a ++ b) := by
  induction a generalizing before with
  | nil => rwa [List.append_nil] at hb
  | cons o a ih =>
    refine ⟨ha.1, ih ha.2 ?_⟩
    rwa [List.append_assoc]

theorem Throughout.at {P : List Outlined → Outlined → Prop} {before a b : List Outlined}
    {o : Outlined} (h : Throughout P before (a ++ o :: b)) : P (before ++ a) o := by
  induction a generalizing before with
  | nil =>
    rw [List.append_nil]
    exact h.1
  | cons x a ih =>
    have := ih h.2
    rwa [List.append_assoc] at this

/-- Each symbol hangs below the nearest one before it that is less deep. -/
abbrev Hanging (roots : List DocumentSymbol) : List Outlined → List Outlined → Prop :=
  Throughout fun before o => HangsBelow roots (nearestAbove o.depth before) o

/-- **Symbols of one depth hang below what is nearest above the first of them**, those between them
below one of them. -/
theorem hangs_listing (roots : List DocumentSymbol) {above : List Bool}
    {before : List Outlined} {siblings done : List DocumentSymbol} (ss : List DocumentSymbol)
    (hsiblings : siblings = done ++ ss)
    (hhangs : ∀ o, o.above = above → Among siblings o →
      HangsBelow roots (nearestAbove above.length before) o) :
    Hanging roots before (listing above ss) := by
  induction ss using induction_forest generalizing above before siblings done with
  | nil => trivial
  | cons s ss ihBelow ih =>
    have hamong : Among siblings ⟨above, ss.isEmpty, s⟩ := by
      refine ⟨done.length, ?_, ?_⟩
      · rw [hsiblings, List.getElem?_append_right (Nat.le_refl _), Nat.sub_self]
        rfl
      · rw [hsiblings, List.length_append, List.length_cons, List.isEmpty_iff,
          ← List.length_eq_zero_iff]
        omega
    rw [listing_cons]
    refine ⟨hhangs _ rfl hamong, throughout_append ?_ ?_⟩
    -- right before the first of its children, and less deep than they are, stands the symbol
    · have hchildren : s.children = [] ++ s.children := rfl
      refine ihBelow hchildren fun o habove ho => ?_
      rw [nearestAbove_concat (by rw [List.length_append]; exact Nat.lt_succ_self _)]
      exact ⟨habove, ho⟩
    -- the symbol and all below it are too deep for a sibling to hang below
    · have hrest : siblings = (done ++ [s]) ++ ss := by
        rw [hsiblings, List.append_assoc]
        rfl
      refine ih hrest fun o habove ho => ?_
      rw [List.append_assoc, nearestAbove_append]
      · exact hhangs o habove ho
      · intro x hx
        rcases List.mem_append.mp hx with hx | hx
        · rw [List.mem_singleton.mp hx]
          exact Nat.le_refl _
        · have := length_le_depth hx
          rw [List.length_append] at this
          omega

/-! ## shapes -/

/-- Either nothing follows, or something that is less deep. -/
def Shallower (depth : Nat) (depths : List Nat) : Prop := ∀ d ∈ depths.head?, d < depth

theorem shallower_nil (depth : Nat) : Shallower depth [] := nofun

theorem depths_listing_cons (above : List Bool) (s : DocumentSymbol) (ss : List DocumentSymbol) :
    (listing above (s :: ss)).map Outlined.depth =
      above.length :: ((listing (above ++ [ss.isEmpty]) s.children).map Outlined.depth ++
        (listing above ss).map Outlined.depth) := by
  rw [listing_cons, List.map_cons, List.map_append]
  rfl

theorem shallower_siblings {above : List Bool} {last : Bool} {rest : List Nat}
    (hrest : Shallower above.length rest) (ss : List DocumentSymbol) :
    Shallower (above ++ [last]).length ((listing above ss).map Outlined.depth ++ rest) := by
  rw [List.length_append, List.length_singleton]
  cases ss with
  | nil => exact fun d hd => Nat.lt_succ_of_lt (hrest d hd)
  | cons s ss =>
    rw [depths_listing_cons]
    rintro d ⟨⟩
    exact Nat.lt_succ_self _

/-- **Depths tell how a forest branches**, and where it ends. -/
theorem shapes_of_depths {above above' : List Bool} {rest rest' : List Nat}
    {ss ts : List DocumentSymbol} (hlength : above.length = above'.length)
    (hrest : Shallower above.length rest) (hrest' : Shallower above.length rest')
    (h : (listing above ss).map Outlined.depth ++ rest =
      (listing above' ts).map Outlined.depth ++ rest') :
    shapes ss = shapes ts ∧ rest = rest' := by
  induction ss using induction_forest generalizing above above' rest rest' ts with
  | nil =>
    cases ts with
    | nil => exact ⟨rfl, h⟩
    | cons t ts =>
      rw [depths_listing_cons] at h
      obtain rfl : rest = _ := h
      exact absurd (hrest _ rfl) (by omega)
  | cons s ss ihBelow ih =>
    cases ts with
    | nil =>
      rw [depths_listing_cons] at h
      obtain rfl : _ = rest' := h
      exact absurd (hrest' _ rfl) (Nat.lt_irrefl _)
    | cons t ts =>
      rw [depths_listing_cons, depths_listing_cons, List.cons_append, List.cons_append,
        List.append_assoc, List.append_assoc] at h
      -- a sibling, or what comes after the last one, shows where the symbols below come to an end
      have htail := (List.cons.inj h).2
      have hlevel : (above ++ [ss.isEmpty]).length = (above' ++ [ts.isEmpty]).length := by
        rw [List.length_append, List.length_append, hlength]
        rfl
      have hsiblings' : Shallower (above ++ [ss.isEmpty]).length
          ((listing above' ts).map Outlined.depth ++ rest') :=
        hlevel ▸ shallower_siblings (hlength ▸ hrest') ts
      obtain ⟨hbelow, hnext⟩ := ihBelow hlevel (shallower_siblings hrest ss) hsiblings' htail
      obtain ⟨hsiblings, hends⟩ := ih hlength hrest hrest' hnext
      rw [shapes_cons, shapes_cons, hbelow, hsiblings]
      exact ⟨rfl, hends⟩

/-! ## outlines -/

def drawing (roots : List DocumentSymbol) : List Char :=
  (SymbolNode.render (SymbolNode.ofSymbols roots)).toList

theorem rows_drawing {roots : List DocumentSymbol} (h : ∀ s ∈ preorder roots, s.OneLine) :
    rows (drawing roots) = (listing [] roots).map Outlined.line := by
  have hdrawn : drawing roots =
      ((listing [] roots).map Outlined.line).flatMap fun line => line ++ ['\n'] :=
    toList_renderLevel rfl roots
  rw [hdrawn]
  refine rows_flatMap fun line hline => ?_
  obtain ⟨o, ho, rfl⟩ := List.mem_map.mp hline
  refine line_isRow (h o.symbol ?_)
  rw [← map_symbol_listing []]
  exact List.mem_map_of_mem ho

theorem readGuides_drawing {roots : List DocumentSymbol} (h : ∀ s ∈ preorder roots, s.OneLine) :
    (rows (drawing roots)).map readGuides =
      (listing [] roots).map fun o => some (o.above, o.last) := by
  rw [rows_drawing h, List.map_map]
  exact List.map_congr_left fun o _ => readGuides_guides o o.symbol.caption.toList

/-- **The text of an outline tells its shape.**  It has a line for each symbol, before the lines of
what is below it; the guides of a line are read back from it, whatever the names look like; and the
nearest line before it with fewer guides is that of the symbol's parent. -/
theorem render_outline (roots : List DocumentSymbol) (h : ∀ s ∈ preorder roots, s.OneLine) :
    rows (drawing roots) = (listing [] roots).map Outlined.line ∧
    (listing [] roots).map Outlined.symbol = preorder roots ∧
    (rows (drawing roots)).map readGuides =
      (listing [] roots).map (fun o => some (o.above, o.last)) ∧
    (∀ before o after, listing [] roots = before ++ o :: after →
      HangsBelow roots (nearestAbove o.depth before) o) ∧
    ∀ others, (∀ s ∈ preorder others, s.OneLine) → drawing others = drawing roots →
      shapes others = shapes roots := by
  refine ⟨rows_drawing h, map_symbol_listing [] roots, readGuides_drawing h,
    fun before o after hsplit => ?_, fun others hothers hdrawing => ?_⟩
  · have hall : roots = [] ++ roots := rfl
    have hroots : Hanging roots [] (listing [] roots) :=
      hangs_listing roots roots hall fun o habove ho => ⟨habove, ho⟩
    rw [hsplit] at hroots
    exact hroots.at
  · have hguides : (listing [] others).map (fun o => some (o.above, o.last)) =
        (listing [] roots).map fun o => some (o.above, o.last) := by
      rw [← readGuides_drawing h, ← hdrawing, readGuides_drawing hothers]
    have hdepths : (listing [] others).map Outlined.depth =
        (listing [] roots).map Outlined.depth := by
      have hlengths := congrArg (List.map (Option.elim · 0 fun guides => guides.1.length)) hguides
      rwa [List.map_map, List.map_map] at hlengths
    have hends : (listing [] others).map Outlined.depth ++ [] =
        (listing [] roots).map Outlined.depth ++ [] := by rw [hdepths]
    exact (shapes_of_depths rfl (shallower_nil _) (shallower_nil _) hends).1

/-- A detail that looks like a part of the name, below a name that looks like a branch. -/
theorem render_outline_lookalike :
    let main (name : String) (detail : Option String) : DocumentSymbol :=
      ⟨name, detail, .function, Range.origin, Range.origin, []⟩
    let box (inside : DocumentSymbol) : List DocumentSymbol :=
      [⟨"│   └── ", none, .struct, Range.origin, Range.origin, [inside]⟩]
    drawing (box (main "main (func())" none)) = drawing (box (main "main" (some "func()"))) ∧
      shapes (box (main "main (func())" none)) = shapes (box (main "main" (some "func()"))) := by
  intro main box
  have hdrawing : drawing (box (main "main (func())" none)) =
      drawing (box (main "main" (some "func()"))) := by
    decide
  exact ⟨hdrawing, (render_outline (box (main "main" (some "func()"))) (by decide)).2.2.2.2
    (box (main "main (func())" none)) (by decide) hdrawing⟩

end CodeBridge
