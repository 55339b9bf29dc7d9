import AtomicCss.Direction
import AtomicCss.Proofs.Value.Split
import AtomicCss.Proofs.Value.Whitespace

/-!
# Positions turned to a side

A position is cut at its spaces, and the pieces that are keywords become sides. A canonical value
has no gaps around its separators, so a keyword beside a separator is not a piece of its own and is
left; and spaces inside strings and calls are cut as well, so what looks like a keyword there
becomes a side.

* `Direction.turn`: the text of some nodes among others with sides for its keywords.
* `Direction.turnNodes`: the same for the nodes; `Node.charsAll_turnNodes` says that the texts
  agree, and `Node.allFit_turnNodes` that they are tokens.
* `Node.betweenGaps`, `Node.anyCrowded`: which nodes stand between gaps, and whether some keyword
  does not; `Node.holdsKeyword`: a string or a call with a keyword between spaces.
* `physical_position`: which keywords are left and when all other tokens are.
-/

namespace AtomicCss

/-! ### Pieces between spaces -/

/-- Induction over a text by its pieces between spaces. -/
theorem pieceInduction {motive : List Char → Prop} (piece : ∀ w, ' ' ∉ w → motive w)
    (cons : ∀ w rest, ' ' ∉ w → motive rest → motive (w ++ ' ' :: rest)) (cs : List Char) :
    motive cs := by
  induction hlength : cs.length using Nat.strong_induction_on generalizing cs with
  | _ length ih =>
    rcases Text.cut_cases (· == ' ') cs with hnone | ⟨w, c, rest, rfl, hw, hc⟩
    · exact piece cs fun hmem => absurd (hnone _ hmem) (by decide)
    · obtain rfl : c = ' ' := by simpa using hc
      have hrest : rest.length < length := by simp [← hlength]; omega
      exact cons w rest (fun hmem => absurd (hw _ hmem) (by decide)) (ih _ hrest rest rfl)

theorem cutAt_piece {w : List Char} (hw : ' ' ∉ w) : Text.cutAt (· == ' ') w = [w] :=
  Text.cutAt_of_forall fun _ hc => beq_eq_false_iff_ne.2 fun heq => hw (heq ▸ hc)

/-- The first piece of a text ends at its first space. -/
theorem cutAt_piece_cons {w : List Char} (hw : ' ' ∉ w) (rest : List Char) :
    Text.cutAt (· == ' ') (w ++ ' ' :: rest) = w :: Text.cutAt (· == ' ') rest :=
  Text.cutAt_append_cons (fun _ hc => beq_eq_false_iff_ne.2 fun heq => hw (heq ▸ hc)) rfl

/-! ### Keywords -/

/-- The keywords that stand for a side. -/
def isSideKeyword (w : List Char) : Bool :=
  w == "start".toList || w == "end".toList

/-- A character that neither belongs to a keyword nor separates words. -/
def isMark (c : Char) : Bool :=
  !" start end".toList.contains c

theorem isSideKeyword_cases {w : List Char} (h : isSideKeyword w = true) :
    w = "start".toList ∨ w = "end".toList := by
  simpa [isSideKeyword] using h

/-- A keyword is spelled with characters that are no marks. -/
theorem not_isMark_of_isSideKeyword {w : List Char} (h : isSideKeyword w = true) {c : Char}
    (hc : c ∈ w) : isMark c = false := by
  have hall : (w.all fun c => !isMark c) = true := by
    rcases isSideKeyword_cases h with rfl | rfl <;> decide
  simpa using List.all_eq_true.1 hall c hc

theorem isSideKeyword_of_isMark {w : List Char} {c : Char} (hc : c ∈ w) (hmark : isMark c = true) :
    isSideKeyword w = false := by
  cases h : isSideKeyword w with
  | false => rfl
  | true => rw [not_isMark_of_isSideKeyword h hc] at hmark; cases hmark

theorem isMark_ne_space {c : Char} (h : isMark c = true) : c ≠ ' ' := by
  rintro rfl
  exact absurd h (by decide)

/-- A class of characters without spaces and the characters of keywords is one of marks. -/
theorem isMark_of_class {p : Char → Bool} (hp : (" start end".toList.all fun c => !p c) = true)
    {c : Char} (hc : p c = true) : isMark c = true := by
  cases hmark : isMark c with
  | true => rfl
  | false =>
    rw [isMark, Bool.not_eq_false', List.contains_iff_mem] at hmark
    simpa [hc] using List.all_eq_true.1 hp c hmark

theorem isMark_of_isQuote {quote : Char} (h : isQuote quote = true) : isMark quote = true :=
  isMark_of_class (by decide) h

theorem isMark_of_isDividerMark {mark : Char} (h : isDividerMark mark = true) :
    isMark mark = true :=
  isMark_of_class (by decide) h

theorem isMark_of_isDigit {c : Char} (h : c.isDigit = true) : isMark c = true :=
  isMark_of_class (by decide) h

/-- Whatever cannot stand in a name is a mark, but for the space. -/
theorem isMark_of_not_isNameChar {c : Char} (hname : isNameChar c = false) (hspace : c ≠ ' ') :
    isMark c = true := by
  have hp : (" start end".toList.all fun c => !(!isNameChar c && c != ' ')) = true := by decide
  exact isMark_of_class hp (by simp [hname, hspace])

namespace Direction

variable {direction : Direction} {starts ends : Bool}

/-- The side for a keyword; any other text is left. -/
def turnWord (direction : Direction) (w : List Char) : List Char :=
  (direction.positionWord (String.ofList w)).toList

theorem turnWord_of_not_isSideKeyword {w : List Char} (h : isSideKeyword w = false) :
    direction.turnWord w = w := by
  have hne : w ≠ "start".toList ∧ w ≠ "end".toList := by simpa [isSideKeyword] using h
  have hstart : String.ofList w ≠ "start" := fun heq => hne.1 (by rw [← heq, String.toList_ofList])
  have hend : String.ofList w ≠ "end" := fun heq => hne.2 (by rw [← heq, String.toList_ofList])
  rw [turnWord, positionWord, if_neg hstart, if_neg hend, String.toList_ofList]

/-- A word is left, or it is a keyword and becomes one of the sides. -/
@[elab_as_elim]
theorem turnWord_induction {motive : List Char → Prop} (direction : Direction) (w : List Char)
    (self : isSideKeyword w = false → motive w)
    (left : isSideKeyword w = true → motive "left".toList)
    (right : isSideKeyword w = true → motive "right".toList) : motive (direction.turnWord w) := by
  cases h : isSideKeyword w with
  | false => rw [turnWord_of_not_isSideKeyword h]; exact self h
  | true =>
    have hside : direction.turnWord w = "left".toList ∨ direction.turnWord w = "right".toList := by
      rcases isSideKeyword_cases h with rfl | rfl <;> cases direction <;> decide
    rcases hside with hside | hside <;> rw [hside]
    · exact left h
    · exact right h

/-- A word that was turned is no keyword any more. -/
theorem not_isSideKeyword_turnWord (w : List Char) :
    isSideKeyword (direction.turnWord w) = false :=
  turnWord_induction direction w id (fun _ => by decide) (fun _ => by decide)

/-- Turning a word changes it exactly if it is a keyword. -/
theorem turnWord_eq_self_iff {w : List Char} :
    direction.turnWord w = w ↔ isSideKeyword w = false :=
  ⟨fun heq => heq ▸ not_isSideKeyword_turnWord w, turnWord_of_not_isSideKeyword⟩

/-! ### Texts -/

/-- Pieces with sides for the keywords among them and spaces between them. The first piece is left
unless `starts` is set, and the last one unless `ends` is. -/
def turnPieces (direction : Direction) (starts ends : Bool) : List (List Char) → List Char
  | [] => []
  | [w] => if starts && ends then direction.turnWord w else w
  | w :: ws =>
    (if starts then direction.turnWord w else w) ++ ' ' :: turnPieces direction true ends ws

/-- A text with sides for the keywords between its spaces. What stands before the text may belong to
its first piece, unless `starts` is set, and what stands behind it to its last one, unless `ends`
is. -/
def turn (direction : Direction) (starts ends : Bool) (cs : List Char) : List Char :=
  direction.turnPieces starts ends (Text.cutAt (· == ' ') cs)

/-- A text without spaces is one piece, which is turned if it is open at neither end. -/
theorem turn_piece {w : List Char} (hw : ' ' ∉ w) :
    direction.turn starts ends w = if starts && ends then direction.turnWord w else w := by
  rw [turn, cutAt_piece hw, turnPieces]

/-- Turning goes piece by piece; behind a space a piece always starts. -/
theorem turn_cons {w : List Char} (hw : ' ' ∉ w) (rest : List Char) :
    direction.turn starts ends (w ++ ' ' :: rest) =
      (if starts then direction.turnWord w else w) ++ ' ' :: direction.turn true ends rest := by
  rw [turn, turn, cutAt_piece_cons hw]
  obtain ⟨v, ws, hpieces⟩ := List.exists_cons_of_ne_nil (Text.cutAt_ne_nil (· == ' ') rest)
  rw [hpieces, turnPieces]
  simp

theorem turn_nil : direction.turn starts ends [] = [] := by
  rw [turn_piece (by simp), turnWord_of_not_isSideKeyword (by decide), ite_self]

/-- The whole of a text stands by itself. -/
theorem toList_position (direction : Direction) (value : String) :
    (direction.position value).toList = direction.turn true true value.toList := by
  have hpieces : ∀ ws : List (List Char),
      (String.intercalate " " (ws.map fun w => direction.positionWord (String.ofList w))).toList =
        direction.turnPieces true true ws := by
    intro ws
    induction ws with
    | nil => rfl
    | cons w ws ih =>
      cases ws with
      | nil => simp [turnPieces, turnWord]
      | cons v ws =>
        rw [List.map_cons, String.intercalate_cons_of_ne_nil (by simp), String.toList_append,
          String.toList_append, ih]
        simp [turnPieces, turnWord]
  exact hpieces _

/-- A space ends one word and begins another. -/
theorem turn_append_space (xs ys : List Char) :
    direction.turn starts ends (xs ++ ' ' :: ys) =
      direction.turn starts true xs ++ ' ' :: direction.turn true ends ys := by
  induction xs using pieceInduction generalizing starts with
  | piece w hw => rw [turn_cons hw, turn_piece hw, Bool.and_true]
  | cons w rest hw ih => simp [turn_cons hw, ih]

/-- What stands beside a mark is no keyword. -/
theorem turn_append_mark {c : Char} (hc : isMark c = true) (xs ys : List Char) :
    direction.turn starts ends (xs ++ c :: ys) =
      direction.turn starts false xs ++ c :: direction.turn false ends ys := by
  have hword : ∀ w u : List Char, direction.turnWord (w ++ c :: u) = w ++ c :: u := fun w u =>
    turnWord_of_not_isSideKeyword (isSideKeyword_of_isMark (by simp) hc)
  have hmem : ∀ {w u : List Char}, ' ' ∉ w → ' ' ∉ u → ' ' ∉ w ++ c :: u := by
    intro w u hw hu
    simp [hw, hu, (isMark_ne_space hc).symm]
  induction xs using pieceInduction generalizing starts with
  | piece w hw =>
    rw [turn_piece hw, Bool.and_false, if_neg (by simp)]
    induction ys using pieceInduction with
    | piece u hu => simp [turn_piece (hmem hw hu), turn_piece hu, hword]
    | cons u rest hu =>
      rw [← List.cons_append, ← List.append_assoc, turn_cons (hmem hw hu), turn_cons hu, hword]
      simp
  | cons w rest hw ih => simp [turn_cons hw, ih]

theorem turn_space_cons (ys : List Char) :
    direction.turn starts ends (' ' :: ys) = ' ' :: direction.turn true ends ys := by
  rw [← List.nil_append (' ' :: ys), turn_append_space, turn_nil, List.nil_append]

/-- A mark keeps the piece it stands in from being a keyword. -/
theorem turn_mark_cons {c : Char} (hc : isMark c = true) (ys : List Char) :
    direction.turn starts ends (c :: ys) = c :: direction.turn false ends ys := by
  rw [← List.nil_append (c :: ys), turn_append_mark hc, turn_nil, List.nil_append]

/-- Texts with a mark where they meet. -/
theorem turn_append {xs ys : List Char}
    (h : (∃ us c, xs = us ++ [c] ∧ isMark c = true) ∨ ∃ c vs, ys = c :: vs ∧ isMark c = true) :
    direction.turn starts ends (xs ++ ys) =
      direction.turn starts false xs ++ direction.turn false ends ys := by
  rcases h with ⟨us, c, rfl, hc⟩ | ⟨c, vs, rfl, hc⟩
  · rw [List.append_assoc, List.singleton_append, turn_append_mark hc, turn_append_mark hc,
      turn_nil, List.append_assoc, List.singleton_append]
  · rw [turn_append_mark hc, turn_mark_cons hc]

/-- Turning leaves a text exactly if no keyword stands between its spaces. -/
theorem turn_eq_self_iff {cs : List Char} :
    direction.turn true true cs = cs ↔
      (Text.cutAt (· == ' ') cs).any isSideKeyword = false := by
  induction cs using pieceInduction with
  | piece w hw => simp [turn_piece hw, cutAt_piece hw, turnWord_eq_self_iff]
  | cons w rest hw ih =>
    rw [turn_cons hw, cutAt_piece_cons hw, if_pos rfl, List.any_cons, Bool.or_eq_false_iff,
      ← @turnWord_eq_self_iff direction w]
    constructor
    · intro heq
      have hspace : ' ' ∉ direction.turnWord w :=
        turnWord_induction direction w (fun _ => hw) (fun _ => by decide) (fun _ => by decide)
      -- neither piece has a space, so both end at the first one
      have hpieces := congrArg (Text.cutAt (· == ' ')) heq
      rw [cutAt_piece_cons hspace, cutAt_piece_cons hw] at hpieces
      have hfirst := (List.cons.inj hpieces).1
      rw [hfirst] at heq
      exact ⟨hfirst, ih.1 (by simpa using heq)⟩
    · rintro ⟨hfirst, hrest⟩
      rw [hfirst, ih.2 hrest]

/-- Turning brings in letters of the sides, which are name characters, and nothing else. -/
theorem mem_turn {cs : List Char} {c : Char} (h : c ∈ direction.turn starts ends cs) :
    c ∈ cs ∨ isNameChar c = true := by
  have hword : ∀ {w}, c ∈ direction.turnWord w → c ∈ w ∨ isNameChar c = true := by
    intro w
    refine turnWord_induction direction w (fun _ => .inl) (fun _ hc => .inr ?_)
      (fun _ hc => .inr ?_)
    · exact List.all_eq_true.1 (by decide) c hc
    · exact List.all_eq_true.1 (by decide) c hc
  induction cs using pieceInduction generalizing starts with
  | piece w hw =>
    rw [turn_piece hw] at h
    split at h
    · exact hword h
    · exact .inl h
  | cons w rest hw ih =>
    rw [turn_cons hw] at h
    rcases List.mem_append.1 h with hc | hc
    · have hcases : c ∈ w ∨ isNameChar c = true := by
        split at hc
        · exact hword hc
        · exact .inl hc
      exact hcases.imp_left fun hmem => List.mem_append.2 (.inl hmem)
    · rcases List.mem_cons.1 hc with rfl | hc
      · exact .inl (by simp)
      · exact (ih hc).imp_left fun hmem => by simp [hmem]

/-- What is seen in front of a text is not changed if its first piece is left. -/
theorem lookahead_turn_false (cs : List Char) :
    lookahead (direction.turn false ends cs) = lookahead cs := by
  induction cs using pieceInduction with
  | piece w hw => rw [turn_piece hw, Bool.false_and, if_neg (by simp)]
  | cons w rest hw => rw [turn_cons hw, if_neg (by simp), lookahead_append, lookahead_append]; rfl

/-- Turning does not change how the beginning of a text is seen by what stands before it. -/
theorem seenAlike_turn (cs : List Char) :
    Node.SeenAlike (lookahead cs) (lookahead (direction.turn starts ends cs)) := by
  have hword : ∀ w t t', lookahead t' = lookahead t →
      Node.SeenAlike (lookahead (w ++ t)) (lookahead (direction.turnWord w ++ t')) := by
    intro w t t' ht
    -- A keyword and a side are words, so that a word character is seen either way.
    have hside : ∀ side : List Char, side ≠ [] ∧ side.all isWordChar = true →
        isSideKeyword w = true → Node.SeenAlike (lookahead (w ++ t)) (lookahead (side ++ t')) := by
      intro side hside h
      have hw : w ≠ [] ∧ w.all isWordChar = true := by
        rcases isSideKeyword_cases h with rfl | rfl <;> decide
      exact Node.seenAlike_append hw.1 hside.1 (List.all_eq_true.1 hw.2)
        (List.all_eq_true.1 hside.2) t t'
    refine turnWord_induction direction w (fun _ => ?_) (hside _ (by decide))
      (hside _ (by decide))
    rw [lookahead_append, lookahead_append, ht]
    exact .inl rfl
  induction cs using pieceInduction with
  | piece w hw =>
    rw [turn_piece hw]
    split
    · simpa using hword w [] [] rfl
    · exact .inl rfl
  | cons w rest hw =>
    rw [turn_cons hw]
    split
    · exact hword w _ _ rfl
    · rw [lookahead_append, lookahead_append]
      exact .inl rfl

end Direction

/-! ### Strings -/

/-- The contents of two strings make the content of one. -/
theorem IsContent.append {quote : Char} {cs ds : List Char} (hcs : IsContent quote cs)
    (hds : IsContent quote ds) : IsContent quote (cs ++ ds) := by
  induction hcs with
  | nil => exact hds
  | escape _ ih => exact .escape ih
  | plain hc hescape _ ih => exact .plain hc hescape ih

/-- A backslash may protect the space, and then it stands before it. -/
theorem IsContent.of_append_space {quote : Char} {cs ds : List Char}
    (h : IsContent quote (cs ++ ' ' :: ds)) :
    IsContent quote (cs ++ [' ']) ∧ IsContent quote ds := by
  generalize hall : cs ++ ' ' :: ds = all at h
  induction h generalizing cs with
  | nil => simp at hall
  | @escape c rest h ih =>
    rcases cs with _ | ⟨a, _ | ⟨b, cs⟩⟩
    · cases hall
    · obtain ⟨rfl, rfl, rfl⟩ : a = '\\' ∧ ' ' = c ∧ ds = rest := by simpa using hall
      exact ⟨.escape .nil, h⟩
    · obtain ⟨rfl, rfl, hrest⟩ : a = '\\' ∧ b = c ∧ cs ++ ' ' :: ds = rest := by simpa using hall
      exact (ih hrest).imp_left .escape
  | @plain c rest hc hescape h ih =>
    rcases cs with _ | ⟨a, cs⟩
    · obtain ⟨rfl, rfl⟩ := List.cons.inj hall
      exact ⟨.plain hc hescape .nil, h⟩
    · obtain ⟨rfl, hrest⟩ := List.cons.inj hall
      exact (ih hrest).imp_left (.plain hc hescape)

/-- The content of a string stays such when it is turned. -/
theorem IsContent.turn {direction : Direction} {starts ends : Bool} {quote : Char} {cs : List Char}
    (hquote : isQuote quote = true) (h : IsContent quote cs) :
    IsContent quote (direction.turn starts ends cs) := by
  have hplain : ∀ {ds : List Char}, (ds.all fun c => !isQuote c && c != '\\') = true →
      IsContent quote ds := by
    intro ds hds
    induction ds with
    | nil => exact .nil
    | cons c ds ih =>
      rw [List.all_cons, Bool.and_eq_true] at hds
      obtain ⟨hc, hds⟩ := hds
      have hne : c ≠ quote := by
        rintro rfl
        simp [hquote] at hc
      exact .plain hne (by simp_all) (ih hds)
  -- A side has neither quotes nor backslashes, so it may replace a keyword anywhere.
  have hword : ∀ {w t : List Char}, IsContent quote (w ++ t) → IsContent quote t →
      IsContent quote (direction.turnWord w ++ t) := by
    intro w t hw ht
    exact direction.turnWord_induction w (fun _ => hw) (fun _ => .append (hplain (by decide)) ht)
      (fun _ => .append (hplain (by decide)) ht)
  induction cs using pieceInduction generalizing starts with
  | piece w hw =>
    rw [Direction.turn_piece hw]
    split
    · rw [← List.append_nil w] at h
      simpa using hword h .nil
    · exact h
  | cons w rest hw ih =>
    obtain ⟨hpiece, hrest⟩ := h.of_append_space
    have hspace : IsContent quote [' '] := hplain (by decide)
    rw [Direction.turn_cons hw, ← List.singleton_append, ← List.append_assoc]
    refine .append ?_ (ih hrest)
    split
    · exact hword hpiece hspace
    · exact hpiece

/-! ### Nodes -/

/-- Whether a word may end in front of the nodes, at a gap or, if `ends` is set, at their end. -/
def Node.endsBefore (ends : Bool) (ns : List Node) : Bool :=
  (ns.head?.map Node.isSpace).getD ends

namespace Direction

mutual

/-- The node with sides for the keywords between spaces in its text. -/
def turnNode (direction : Direction) (starts ends : Bool) : Node → Node
  | .word text => .word (String.ofList (direction.turn starts ends text.toList))
  | .string quote content =>
    .string quote (String.ofList (direction.turn false false content.toList))
  | .call name args closed => .call name (turnNodes direction false (ends && !closed) args) closed
  | n => n

/-- The nodes with sides for the keywords between spaces in their text. -/
def turnNodes (direction : Direction) (starts ends : Bool) : List Node → List Node
  | [] => []
  | n :: ns =>
    turnNode direction starts (Node.endsBefore ends ns) n :: turnNodes direction n.isSpace ends ns

end

end Direction

namespace Node

variable {direction : Direction} {starts ends : Bool} {n : Node} {next seen : Option Char}

theorem space_notMem_of_isWordChar {cs : List Char} (h : ∀ c ∈ cs, isWordChar c = true) :
    ' ' ∉ cs :=
  fun hmem => absurd (h _ hmem) (by decide)

theorem eq_space (h : n.isSpace = true) : n = .space := by
  cases n with
  | space => rfl
  | _ => cases h

/-- The text of a number has a digit and no space, so it is left. -/
theorem turn_number {d : Dimension} (h : d.IsWritten) :
    direction.turn starts ends d.chars = d.chars := by
  obtain ⟨c, hc, hdigit⟩ := h.number.exists_digit
  have hkeyword : isSideKeyword d.chars = false :=
    isSideKeyword_of_isMark (List.mem_append.2 (.inl hc)) (isMark_of_isDigit hdigit)
  rw [Direction.turn_piece (space_notMem_of_isWordChar h.wordChars),
    Direction.turnWord_of_not_isSideKeyword hkeyword, ite_self]

/-- A quote opens and closes a string, so that the pieces beside it are left. -/
theorem turn_string {quote : Char} (hquote : isQuote quote = true) (content : String) :
    direction.turn starts ends (chars (.string quote content)) =
      quote :: (direction.turn false false content.toList ++ [quote]) := by
  have hmark := isMark_of_isQuote hquote
  rw [chars, List.cons_append, Direction.turn_mark_cons hmark, Direction.turn_append_mark hmark,
    Direction.turn_nil]

/-- The name of a call ends at its parenthesis, so it is no keyword. -/
theorem turn_call {name : String} (hname : ∀ c ∈ name.toList, isNameChar c = true)
    (args : List Node) (closed : Bool) :
    direction.turn starts ends (chars (.call name args closed)) =
      name.toList ++ '(' :: (direction.turn false (ends && !closed) (charsAll args) ++
        if closed then [')'] else []) := by
  have hspace := space_notMem_of_isWordChar fun c hc => isWordChar_of_isNameChar (hname c hc)
  rw [chars, List.append_assoc, List.cons_append, Direction.turn_append_mark (by decide),
    Direction.turn_piece hspace, Bool.and_false, if_neg (by simp)]
  cases closed with
  | true =>
    rw [if_pos rfl, Direction.turn_append_mark (by decide), Direction.turn_nil, Bool.not_true,
      Bool.and_false]
  | false => simp

/-- The text of a node, if this is so for the arguments of a call. -/
theorem chars_turnNode_of_args (h : n.Fits seen)
    (hargs : ∀ name args closed, n = .call name args closed → ∀ starts ends next,
      AllFit next args →
        charsAll (direction.turnNodes starts ends args) =
          direction.turn starts ends (charsAll args)) :
    (direction.turnNode starts ends n).chars = direction.turn starts ends n.chars := by
  cases n with
  | word text => simp [Direction.turnNode, chars]
  | number d => exact (turn_number h.1).symm
  | string quote content =>
    rw [turn_string h.1, Direction.turnNode, chars, String.toList_ofList, List.cons_append]
  | call name args closed =>
    have hbody : charsAll (direction.turnNodes false (ends && !closed) args) =
        direction.turn false (ends && !closed) (charsAll args) := by
      have hfits := h.2.2
      split at hfits
      · obtain ⟨body, rfl, -⟩ := hfits
        simp [Direction.turnNodes, Direction.turnNode, endsBefore, chars]
      · exact hargs _ _ _ rfl _ _ _ hfits
    rw [turn_call h.1, ← hbody, Direction.turnNode, chars, List.append_assoc, List.cons_append]
  | space => simp [Direction.turnNode, chars, Direction.turn_space_cons, Direction.turn_nil]
  | divider mark =>
    simp [Direction.turnNode, chars, Direction.turn_mark_cons (isMark_of_isDividerMark h),
      Direction.turn_nil]

/-- Where a token meets the next one without a gap, there is a mark: the last character of the one
or the first of the other. -/
theorem Fits.not_isNameChar_or_mark {c : Char} (h : n.Fits (some c)) (hn : n.isSpace = false) :
    isNameChar c = false ∨ ∃ us d, n.chars = us ++ [d] ∧ isMark d = true := by
  cases n with
  | word text =>
    refine .inl ?_
    cases hname : isNameChar c with
    | false => rfl
    | true =>
      have hword := h.2.1 c rfl
      rw [isWordChar_of_isNameChar hname] at hword
      cases hword
  | number d => exact .inl (isNameChar_of_continuesWord (h.2.1 c rfl))
  | string quote content =>
    exact .inr ⟨quote :: content.toList, quote, rfl, isMark_of_isQuote h.1⟩
  | call name args closed =>
    cases closed with
    | false => cases h.2.1 rfl
    | true => exact .inr ⟨name.toList ++ '(' :: charsAll args, ')', by simp [chars], by decide⟩
  | space => cases hn
  | divider mark => exact .inr ⟨[], mark, rfl, isMark_of_isDividerMark h⟩

theorem isNameChar_of_seenAs {c : Char} (h : isNameChar (seenAs c) = false) :
    isNameChar c = false := by
  cases hname : isNameChar c with
  | false => rfl
  | true =>
    rw [seenAs_of_isWordChar (isWordChar_of_isNameChar hname), hname] at h
    cases h

/-- The text of a node and that of the nodes behind it. -/
theorem turn_chars_append {ns : List Node} (h : AllFit next (n :: ns)) :
    direction.turn starts ends (n.chars ++ charsAll ns) =
      direction.turn starts (endsBefore ends ns) n.chars ++
        direction.turn n.isSpace ends (charsAll ns) := by
  cases hn : n.isSpace with
  | true =>
    obtain rfl := eq_space hn
    rw [chars, List.singleton_append, Direction.turn_space_cons, Direction.turn_space_cons,
      Direction.turn_nil, List.singleton_append]
  | false =>
    cases ns with
    | nil => simp [endsBefore, Direction.turn_nil]
    | cons m ms =>
      cases hm : m.isSpace with
      | true =>
        obtain rfl := eq_space hm
        simp [endsBefore, hm, chars, Direction.turn_append_space, Direction.turn_space_cons]
      | false =>
        -- Where two nodes meet without a gap there is a mark, before or behind the border.
        obtain ⟨c, cs, hchars, hblank⟩ := h.2.1.exists_head_not_blank hm
        have hall : charsAll (m :: ms) = c :: (cs ++ charsAll ms) := by
          rw [charsAll_cons, hchars, List.cons_append]
        have hfits : n.Fits (some (seenAs c)) := by
          have hfits := h.1
          rwa [hall, lookahead_cons, Option.some_or] at hfits
        have hends : endsBefore ends (m :: ms) = false := by simp [endsBefore, hm]
        rw [hends]
        refine Direction.turn_append ?_
        rcases hfits.not_isNameChar_or_mark hn with hname | hlast
        · refine .inr ⟨c, _, hall, isMark_of_not_isNameChar (isNameChar_of_seenAs hname) ?_⟩
          rintro rfl
          exact absurd hblank (by decide)
        · exact .inl hlast

/-- Turning the nodes is turning their text. -/
theorem charsAll_turnNodes {ns : List Node} (h : AllFit next ns) :
    charsAll (direction.turnNodes starts ends ns) =
      direction.turn starts ends (charsAll ns) := by
  induction ns using listInduction generalizing starts ends next with
  | nil => exact Direction.turn_nil.symm
  | cons n ns hargs ih =>
    have hn : (direction.turnNode starts (endsBefore ends ns) n).chars = _ :=
      chars_turnNode_of_args h.1 fun name args closed heq _ _ _ => hargs name args closed heq
    rw [Direction.turnNodes, charsAll_cons, hn, ih h.2, charsAll_cons, turn_chars_append h]

/-! ### Tokens -/

/-- A word becomes a side if it is a keyword that stands by itself. -/
theorem turnNode_word {text : String} (h : IsWord text.toList) :
    direction.turnNode starts ends (.word text) =
      .word (if starts && ends then direction.positionWord text else text) := by
  rw [Direction.turnNode, Direction.turn_piece (space_notMem_of_isWordChar h.chars),
    Direction.turnWord, String.ofList_toList]
  split <;> rw [String.ofList_toList]

/-- A side can stand wherever the keyword for it can. -/
theorem Fits.positionWord {text : String} (h : Fits seen (.word text)) :
    Fits seen (.word (direction.positionWord text)) := by
  have hside : ∀ {keyword side : String}, text = keyword → keyword.toList.all isNameChar = true →
      IsWord side.toList → Fits seen (.word side) := by
    rintro keyword side rfl hnames hword
    refine ⟨hword, h.2.1, fun hopen => ?_⟩
    obtain ⟨c, hc, hnot⟩ := h.2.2 hopen
    rw [List.all_eq_true.1 hnames c hc] at hnot
    cases hnot
  have hleft : IsWord "left".toList :=
    ⟨by decide, List.all_eq_true.1 (by decide), by decide⟩
  have hright : IsWord "right".toList :=
    ⟨by decide, List.all_eq_true.1 (by decide), by decide⟩
  rw [Direction.positionWord]
  split
  · next hstart => cases direction <;> exact hside hstart (by decide) (by assumption)
  · split
    · next hend => cases direction <;> exact hside hend (by decide) (by assumption)
    · exact h

/-- A node is a token where it was one, if this is so for the arguments of a call. -/
theorem Fits.turnNode_of_args (h : n.Fits seen)
    (hargs : ∀ name args closed, n = .call name args closed → ∀ starts ends next,
      AllFit next args → AllFit next (direction.turnNodes starts ends args)) :
    (direction.turnNode starts ends n).Fits seen := by
  cases n with
  | word text =>
    rw [turnNode_word h.1]
    split
    · exact h.positionWord
    · exact h
  | string quote content =>
    refine ⟨h.1, ?_⟩
    rw [String.toList_ofList]
    exact h.2.turn h.1
  | call name args closed =>
    refine ⟨h.1, h.2.1, ?_⟩
    have hfits := h.2.2
    split at hfits
    · next hurl =>
      obtain ⟨body, rfl, hparen⟩ := hfits
      rw [if_pos hurl]
      refine ⟨_, rfl, ?_⟩
      rw [String.toList_ofList]
      intro hmem
      -- The sides bring in no parenthesis that would close the address early.
      rcases Direction.mem_turn hmem with hmem | hname
      · exact hparen hmem
      · exact absurd hname (by decide)
    · next hurl =>
      rw [if_neg hurl]
      exact hargs _ _ _ rfl _ _ _ hfits
  | number | space | divider => exact h

/-- The nodes are tokens after turning. -/
theorem allFit_turnNodes {ns : List Node} (h : AllFit next ns) :
    AllFit next (direction.turnNodes starts ends ns) := by
  induction ns using listInduction generalizing starts ends next with
  | nil => trivial
  | cons n ns hargs ih =>
    refine ⟨?_, ih h.2⟩
    rw [charsAll_turnNodes h.2]
    cases hn : n.isSpace with
    | true =>
      obtain rfl := eq_space hn
      exact ((Direction.seenAlike_turn _).or next).ne_space h.1
    | false =>
      rw [Direction.lookahead_turn_false]
      exact h.1.turnNode_of_args fun name args closed heq _ _ _ => hargs name args closed heq

/-- Turning a node is turning its text: the step of the argument, one case for each form of a
node. -/
theorem chars_turnNode (h : n.Fits seen) :
    (direction.turnNode starts ends n).chars = direction.turn starts ends n.chars :=
  chars_turnNode_of_args h fun _ _ _ _ _ _ _ => charsAll_turnNodes

/-- A node is left exactly if its text is. -/
theorem turnNode_eq_self_iff (h : n.Fits seen) :
    direction.turnNode starts ends n = n ↔ direction.turn starts ends n.chars = n.chars := by
  rw [← chars_turnNode h]
  refine ⟨fun heq => by rw [heq], fun hchars => ?_⟩
  -- both are tokens by themselves, and one text is not read as two of them
  have hturned : (direction.turnNode starts ends n).Fits seen :=
    h.turnNode_of_args fun _ _ _ _ _ _ _ => allFit_turnNodes
  have hparse := parseValue_render_iff.2 (show AllFit none [n] from ⟨h.at_end, trivial⟩)
  have hparse' := parseValue_render_iff.2
    (show AllFit none [direction.turnNode starts ends n] from ⟨hturned.at_end, trivial⟩)
  rw [render, charsAll_cons, hchars] at hparse'
  exact (List.cons.inj (Except.ok.inj (hparse'.symm.trans hparse))).1

/-! ### Keywords among nodes -/

/-- A word that stands for a side. -/
def isKeyword : Node → Bool
  | .word text => isSideKeyword text.toList
  | _ => false

/-- Each node with whether it stands between gaps, or at an end; `starts` says whether there is one
in front of the nodes. -/
def betweenGaps (starts : Bool) : List Node → List (Node × Bool)
  | [] => []
  | n :: ns => (n, starts && endsBefore true ns) :: betweenGaps n.isSpace ns

/-- Whether some keyword stands beside something other than a gap. -/
def anyCrowded (starts : Bool) (ns : List Node) : Bool :=
  (betweenGaps starts ns).any fun p => p.1.isKeyword && !p.2

/-- A string or a call whose text has a keyword between spaces. -/
def holdsKeyword (n : Node) : Bool :=
  match n with
  | .string _ _ | .call _ _ _ => (Text.cutAt (· == ' ') n.chars).any isSideKeyword
  | _ => false

end Node

/-- The node with a side for a keyword: a line starts at the left in the one direction and at the
right in the other, and ends at the other side. -/
def Direction.side : Direction → Node → Node
  | .ltr, .word "start" | .rtl, .word "end" => .word "left"
  | .ltr, .word "end" | .rtl, .word "start" => .word "right"
  | _, n => n

namespace Node

variable {direction : Direction} {starts ends : Bool} {n : Node} {next seen : Option Char}

/-- The keywords that are still there are those with something other than a gap beside them. -/
theorem isKeyword_turnNode (h : n.Fits seen) :
    (direction.turnNode starts ends n).isKeyword = (n.isKeyword && !(starts && ends)) := by
  cases n with
  | word text =>
    rw [turnNode_word h.1]
    cases starts && ends with
    | true =>
      have hside : isSideKeyword (direction.positionWord text).toList = false := by
        have hside := direction.not_isSideKeyword_turnWord text.toList
        rwa [Direction.turnWord, String.ofList_toList] at hside
      simp [isKeyword, hside]
    | false => simp [isKeyword]
  | _ => simp [Direction.turnNode, isKeyword]

/-- What stands around a string or a call does not matter to the words in it. -/
theorem turnNode_string_eq_self_iff {quote : Char} {content : String}
    (h : Fits seen (.string quote content)) :
    direction.turnNode starts ends (.string quote content) = .string quote content ↔
      holdsKeyword (.string quote content) = false := by
  rw [turnNode_eq_self_iff h, holdsKeyword, ← direction.turn_eq_self_iff, turn_string h.1,
    turn_string h.1]

/-- A call is left exactly if its text has no keyword between spaces. -/
theorem turnNode_call_eq_self_iff {name : String} {args : List Node} {closed : Bool}
    (h : Fits seen (.call name args closed)) (hends : closed = false → ends = true) :
    direction.turnNode starts ends (.call name args closed) = .call name args closed ↔
      holdsKeyword (.call name args closed) = false := by
  have hlast : (ends && !closed) = (true && !closed) := by
    cases closed with
    | true => simp
    | false => rw [hends rfl]
  rw [turnNode_eq_self_iff h, holdsKeyword, ← direction.turn_eq_self_iff, turn_call h.1,
    turn_call h.1, hlast]

theorem side_word (text : String) :
    direction.side (.word text) = .word (direction.positionWord text) := by
  by_cases hstart : text = "start"
  · subst hstart
    cases direction <;> rfl
  · by_cases hend : text = "end"
    · subst hend
      cases direction <;> rfl
    · cases direction <;> simp [Direction.side, Direction.positionWord, hstart, hend]

/-- A side is put for keywords only. -/
theorem side_eq_self_iff : direction.side n = n ↔ n.isKeyword = false := by
  cases n with
  | word text =>
    rw [side_word, isKeyword, ← @Direction.turnWord_eq_self_iff direction, Direction.turnWord,
      String.ofList_toList, String.toList_inj, Node.word.injEq]
  | _ => simp [Direction.side, isKeyword]

/-- A keyword by itself becomes a side, and nothing happens to other nodes but those that hold a
keyword. -/
theorem turnNode_eq_iff (h : n.Fits seen) (hends : seen = none → ends = true) :
    direction.turnNode starts ends n = (if starts && ends then direction.side n else n) ↔
      n.holdsKeyword = false := by
  cases n with
  | word text =>
    rw [turnNode_word h.1]
    cases starts && ends <;> simp [side_word, holdsKeyword]
  | string quote content =>
    rw [side_eq_self_iff.2 rfl, ite_self, turnNode_string_eq_self_iff h]
  | call name args closed =>
    rw [side_eq_self_iff.2 rfl, ite_self,
      turnNode_call_eq_self_iff h fun hclosed => hends (h.2.1 hclosed)]
  | number | space | divider => simp [Direction.turnNode, Direction.side, holdsKeyword]

/-- A keyword is a word, which holds no other. -/
theorem holdsKeyword_of_isKeyword (h : n.isKeyword = true) : n.holdsKeyword = false := by
  cases n with
  | word text => rfl
  | _ => cases h

/-- Turning a node gives the side it stands for, unless it is a crowded keyword or holds a keyword
in its text. -/
theorem turnNode_eq_side_iff (h : n.Fits seen) (hends : seen = none → ends = true) :
    direction.turnNode starts ends n = direction.side n ↔
      (n.isKeyword && !(starts && ends)) = false ∧ n.holdsKeyword = false := by
  have hnode : direction.turnNode starts ends n = _ ↔ _ := turnNode_eq_iff h hends
  cases hkeyword : n.isKeyword with
  | false =>
    rw [side_eq_self_iff.2 hkeyword, ite_self] at hnode
    simp [side_eq_self_iff.2 hkeyword, hnode]
  | true =>
    have hholds := holdsKeyword_of_isKeyword hkeyword
    rw [hnode.2 hholds]
    cases starts && ends with
    | true => simp [hholds]
    | false =>
      have hne : n ≠ direction.side n := fun heq => by
        rw [side_eq_self_iff.1 heq.symm] at hkeyword
        cases hkeyword
      simp [hne]

/-- Behind the last token a word may end. -/
theorem endsBefore_of_lookahead {ns : List Node} (h : AllFit next ns)
    (hnone : (lookahead (charsAll ns)).or next = none) : endsBefore true ns = true := by
  cases ns with
  | nil => rfl
  | cons m ms =>
    have hnil : charsAll (m :: ms) = [] := lookahead_eq_none.1 (Option.or_eq_none_iff.1 hnone).1
    exact absurd (List.append_eq_nil_iff.1 hnil).1 h.1.chars_ne_nil

section Nodes

variable {ns : List Node} (h : AllFit next ns)
include h

/-- The keywords left behind by turning are the crowded ones. -/
theorem any_isKeyword_turnNodes :
    (direction.turnNodes starts true ns).any isKeyword = anyCrowded starts ns := by
  rw [anyCrowded]
  induction ns generalizing starts with
  | nil => rfl
  | cons n ns ih =>
    rw [Direction.turnNodes, List.any_cons, isKeyword_turnNode h.1, ih h.2, betweenGaps,
      List.any_cons]

/-- Node by node: keywords between gaps become sides and all else is left, but for strings and
calls with a keyword in their text. -/
theorem forall₂_turnNodes :
    List.Forall₂
      (fun p m => m = (if p.2 then direction.side p.1 else p.1) ↔ p.1.holdsKeyword = false)
      (betweenGaps starts ns) (direction.turnNodes starts true ns) := by
  induction ns generalizing starts with
  | nil => exact .nil
  | cons n ns ih => exact .cons (turnNode_eq_iff h.1 (endsBefore_of_lookahead h.2)) (ih h.2)

/-- Turning puts a side for every keyword exactly if none is crowded and none is hidden in a
string or a call. -/
theorem turnNodes_eq_map_side_iff :
    direction.turnNodes starts true ns = ns.map direction.side ↔
      anyCrowded starts ns = false ∧ ns.any holdsKeyword = false := by
  rw [anyCrowded]
  induction ns generalizing starts with
  | nil => simp [Direction.turnNodes, betweenGaps]
  | cons n ns ih =>
    rw [Direction.turnNodes, List.map_cons, List.cons.injEq, ih h.2,
      turnNode_eq_side_iff h.1 (endsBefore_of_lookahead h.2), betweenGaps, List.any_cons,
      List.any_cons, Bool.or_eq_false_iff, Bool.or_eq_false_iff]
    exact and_and_and_comm

end Nodes

end Node

/-! ### Values -/

/-- A keyword is left in the physical form of a canonical position if and only if it stands beside
something other than a gap. The keywords between gaps become sides, and of the other tokens the
strings and calls with a keyword between spaces are changed, and only these. So all keywords become
sides and all other tokens are left if and only if there is neither kind of keyword. -/
theorem physical_position {options : Options} {raw v : String}
    (h : normalValue options "background-position" raw = .ok v) (direction : Direction)
    (path : List Condition) :
    ∃ ns ms w, parseValue v = .ok ns ∧ parseValue w = .ok ms ∧
      (Declaration.mk "background-position" [v] path).physical options direction =
        ⟨"background-position", [w], path⟩ ∧
      ms.any Node.isKeyword = Node.anyCrowded true ns ∧
      List.Forall₂
        (fun p m => m = (if p.2 then direction.side p.1 else p.1) ↔ p.1.holdsKeyword = false)
        (Node.betweenGaps true ns) ms ∧
      (ms = ns.map direction.side ↔
        Node.anyCrowded true ns = false ∧ ns.any Node.holdsKeyword = false) := by
  obtain ⟨ns, hparse, rfl, -⟩ := exists_nodes_of_normalValue (by decide) h
  have hfit := parseValue_render_iff.1 hparse
  -- A position is turned as a text, and its nodes are turned in the same way.
  have htext : direction.position (Node.render ns) =
      Node.render (direction.turnNodes true true ns) := by
    rw [← String.toList_inj, Direction.toList_position, Node.toList_render, Node.toList_render,
      Node.charsAll_turnNodes hfit]
  refine ⟨ns, direction.turnNodes true true ns, direction.position (Node.render ns), hparse, ?_,
    rfl, Node.any_isKeyword_turnNodes hfit, Node.forall₂_turnNodes hfit,
    Node.turnNodes_eq_map_side_iff hfit⟩
  rw [htext]
  exact parseValue_render_iff.2 (Node.allFit_turnNodes hfit)

/-- The first word of the second layer stands beside the comma and is left. -/
theorem physical_position_layers :
    normalValue {} "background-position" "start 0, end 0" = .ok "start 0,end 0" ∧
      (Declaration.mk "background-position" ["start 0,end 0"] []).physical {} .ltr =
        ⟨"background-position", ["left 0,end 0"], []⟩ ∧
      ∃ ms, parseValue "left 0,end 0" = .ok ms ∧ ms.any Node.isKeyword = true := by
  have hraw : parseValue "start 0, end 0" = .ok
      [.word "start", .space, .number ⟨"0", ""⟩, .divider ',', .space, .word "end", .space,
        .number ⟨"0", ""⟩] := by
    cbv
  have hv : parseValue "start 0,end 0" = .ok
      [.word "start", .space, .number ⟨"0", ""⟩, .divider ',', .word "end", .space,
        .number ⟨"0", ""⟩] := by
    cbv
  have hvalue : normalValue {} "background-position" "start 0, end 0" = .ok "start 0,end 0" :=
    (normalValue_eq_ok (by decide)).2 ⟨by decide, _, hraw, by decide, by decide⟩
  have hphysical : (Declaration.mk "background-position" ["start 0,end 0"] []).physical {} .ltr =
      ⟨"background-position", ["left 0,end 0"], []⟩ := by
    decide
  obtain ⟨ns, ms, w, hns, hms, hw, hkeyword, -⟩ := physical_position hvalue .ltr []
  obtain rfl := Except.ok.inj (hv.symm.trans hns)
  obtain rfl : "left 0,end 0" = w := by simpa using hphysical.symm.trans hw
  exact ⟨hvalue, hphysical, ms, hms, hkeyword⟩

end AtomicCss
