import ModelScoring.Proofs.Matrix.Checked
import ModelScoring.Proofs.Model.InTurn
import ModelScoring.Proofs.Text.Layout
import ModelScoring.Proofs.Workspace.History
import ModelScoring.Proofs.Xml.DocumentOrder

/-!
# What a block of constants holds

Each element of a block of constants gives a size and values.  `ConstantOutcome` has one rule for
each thing that can be wrong with an element, in the order in which they are looked for, and one for
a matrix.  The values are the whole pieces that the text of the element lays out, and the matrix
holds them row by row.

`BlockOutcome` says the same of a block.  The first element with something wrong decides.  If there
is none, the workspace holds the matrices as though they had been set one after the other: of
elements with the same name up to ASCII case the first gives the spelling and the last gives the
matrix (`Workspace.Refines`).

`readConstants_eq_iff_outcome` says that these are the outcomes of reading a block, and that it does
not matter how the pieces are laid out.
-/

namespace ModelScoring

open Xml (Node)
open Text (LaidOut Whole KeepsBlanks)

/-- Pieces fill a matrix if there are as many as elements, and each element stands in its piece. -/
theorem Matrix.map_readFloat?_eq_data_iff {ps : List (List Char)} {A : Matrix} :
    ps.map Decimal.readFloat? = A.data.toList.map some ↔ ps.length = A.rows * A.cols ∧
      ∀ r c, r < A.rows → c < A.cols →
        ∃ p x, ps[r * A.cols + c]? = some p ∧ Decimal.readFloat? p = some x ∧
          A.get? r c = some x := by
  have hsize : A.data.size = A.rows * A.cols := A.size_data
  constructor
  · intro h
    have hlength : ps.length = A.rows * A.cols := by
      rw [← hsize]
      simpa using congrArg List.length h
    refine ⟨hlength, fun r c hr hc => ?_⟩
    have hoff : r * A.cols + c < A.rows * A.cols := offset_lt hr hc
    have hp : r * A.cols + c < ps.length := hlength ▸ hoff
    have hx : r * A.cols + c < A.data.size := hsize ▸ hoff
    refine ⟨ps[r * A.cols + c], A.data[r * A.cols + c], List.getElem?_eq_getElem hp, ?_, ?_⟩
    · have hat := congrArg (fun values => values[r * A.cols + c]?) h
      simpa [hp, hx] using hat
    · rw [get?, if_pos ⟨hr, hc⟩, Array.getElem?_eq_getElem hx]
  · rintro ⟨hlength, helements⟩
    refine List.ext_getElem (by simp [hlength, hsize]) fun k hk _ => ?_
    have hlt : k < A.rows * A.cols := by simpa [hlength] using hk
    obtain ⟨hr, hc⟩ := div_mod_lt hlt
    obtain ⟨p, x, hp, hx, hget⟩ := helements _ _ hr hc
    have hdata : k < A.data.size := hsize ▸ hlt
    rw [get?_div_mod hdata, Array.getElem?_eq_getElem hdata] at hget
    rw [Nat.div_add_mod'] at hp
    obtain ⟨hklt, rfl⟩ := List.getElem?_eq_some_iff.1 hp
    rw [List.getElem_map, List.getElem_map, hx, ← hget, Array.getElem_toList hdata]

namespace Model

/-! ## One constant -/

/-- The text of a constant has these values, as they are written. -/
structure ValuesWritten (node : Node) (ps : List (List Char)) : Prop where
  laidOut : ∃ cs, node.TextBelow cs ∧ LaidOut separatesValues ps cs
  whole : ∀ p ∈ ps, Whole separatesValues p

/-- What an element in a block of constants comes to. -/
inductive ConstantOutcome (step : String) (node : Node) : Except ModelError Matrix → Prop
  /-- There is no size. -/
  | unsized (size : node.attribute? "size" = none) :
    ConstantOutcome step node (.error (.unparsableConstant ((node.name?).getD "") step))
  /-- The size is no shape. -/
  | misshapen {text : String} (size : node.attribute? "size" = some text)
      (shape : Shape.read? text = none) :
    ConstantOutcome step node (.error (.unparsableConstant ((node.name?).getD "") step))
  /-- A value is no numeral, and it does not matter how many there are. -/
  | notNumeral {text : String} {shape : Shape} {ps : List (List Char)} {p : List Char}
      (size : node.attribute? "size" = some text) (shaped : Shape.read? text = some shape)
      (written : ValuesWritten node ps) (mem : p ∈ ps) (unread : Decimal.readFloat? p = none) :
    ConstantOutcome step node (.error (.unparsableConstant ((node.name?).getD "") step))
  /-- The values are not as many as the shape has elements. -/
  | miscounted {text : String} {shape : Shape} {ps : List (List Char)}
      (size : node.attribute? "size" = some text) (shaped : Shape.read? text = some shape)
      (written : ValuesWritten node ps) (numerals : ∀ p ∈ ps, (Decimal.readFloat? p).isSome)
      (count : ps.length ≠ shape.rows * shape.cols) :
    ConstantOutcome step node (.error (.wrongSizeConstant ((node.name?).getD "") step))
  /-- The values are the elements, row by row. -/
  | matrix {text : String} {ps : List (List Char)} {A : Matrix}
      (size : node.attribute? "size" = some text) (shaped : Shape.read? text = some A.shape)
      (written : ValuesWritten node ps) (count : ps.length = A.rows * A.cols)
      (elements : ∀ r c, r < A.rows → c < A.cols →
        ∃ p x, ps[r * A.cols + c]? = some p ∧ Decimal.readFloat? p = some x ∧
          A.get? r c = some x) :
    ConstantOutcome step node (.ok A)

theorem keepsBlanks_separatesValues : KeepsBlanks separatesValues := by
  intro c hblank
  refine Bool.eq_false_iff.2 fun hsep => ?_
  rcases Bool.or_eq_true_iff.1 hsep with h | h <;>
  · obtain rfl := beq_iff_eq.1 h
    exact absurd hblank (by decide)

theorem valuesWritten_iff {node : Node} {ps : List (List Char)} :
    ValuesWritten node ps ↔ Text.fullPieces separatesValues node.innerText = ps := by
  rw [Text.fullPieces_eq_iff keepsBlanks_separatesValues]
  constructor
  · rintro ⟨⟨cs, hbelow, hlaid⟩, hwhole⟩
    rw [Node.innerText_eq_iff.2 hbelow]
    exact ⟨hlaid, hwhole⟩
  · rintro ⟨hlaid, hwhole⟩
    exact ⟨⟨_, Node.innerText_eq_iff.1 rfl, hlaid⟩, hwhole⟩

theorem readValues?_eq_some_iff {pieces : List (List Char)} {values : List Float} :
    readValues? pieces = some values ↔ pieces.map Decimal.readFloat? = values.map some := by
  induction pieces generalizing values with
  | nil => cases values <;> simp [readValues?]
  | cons piece pieces ih =>
    cases hpiece : Decimal.readFloat? piece with
    | none => cases values <;> simp [readValues?, hpiece]
    | some x =>
      cases values with
      | nil => simp [readValues?, hpiece]
      | cons y values => simp [readValues?, hpiece, ih, and_comm]

theorem readValues?_eq_none_iff {pieces : List (List Char)} :
    readValues? pieces = none ↔ ∃ piece ∈ pieces, Decimal.readFloat? piece = none := by
  induction pieces with
  | nil => simp [readValues?]
  | cons piece pieces ih =>
    cases hpiece : Decimal.readFloat? piece with
    | none => simp [readValues?, hpiece]
    | some x => simp [readValues?, hpiece, ih]

section

variable {step text : String} {node : Node} {shape : Shape} {ps : List (List Char)}
  (size : node.attribute? "size" = some text) (shaped : Shape.read? text = some shape)
  (written : ValuesWritten node ps)

include size shaped written

theorem readConstant_of_notNumeral {p : List Char} (mem : p ∈ ps)
    (unread : Decimal.readFloat? p = none) (name : String) :
    readConstant name step node = .error (.unparsableConstant name step) := by
  simp only [readConstant, size, Option.bind_some, shaped, valuesWritten_iff.1 written,
    readValues?_eq_none_iff.2 ⟨p, mem, unread⟩]

theorem readConstant_of_values {values : List Float}
    (read : ps.map Decimal.readFloat? = values.map some) (name : String) :
    readConstant name step node =
      (Matrix.ofArray shape values.toArray).mapError fun _ => .wrongSizeConstant name step := by
  simp only [readConstant, size, Option.bind_some, shaped, valuesWritten_iff.1 written,
    readValues?_eq_some_iff.2 read]
  cases Matrix.ofArray shape values.toArray <;> rfl

/-- Values that were read fill the shape, or their number is wrong. -/
theorem outcome_of_values {values : List Float}
    (read : ps.map Decimal.readFloat? = values.map some) :
    ConstantOutcome step node
      ((Matrix.ofArray shape values.toArray).mapError fun _ =>
        .wrongSizeConstant ((node.name?).getD "") step) := by
  have hlength : ps.length = values.toArray.size := by simpa using congrArg List.length read
  -- only the number of values can be refused here, as no shape that is read is too large
  rw [Matrix.ofArray, dif_pos (Shape.countable_of_readChars? shaped)]
  by_cases hcount : values.toArray.size = shape.count
  · rw [dif_pos hcount]
    exact .matrix size shaped written (Matrix.map_readFloat?_eq_data_iff.1 read).1
      (Matrix.map_readFloat?_eq_data_iff.1 read).2
  · rw [dif_neg hcount]
    refine .miscounted size shaped written (fun p hp => ?_) fun h => hcount (hlength ▸ h)
    have hmem : Decimal.readFloat? p ∈ values.map some := read ▸ List.mem_map_of_mem hp
    obtain ⟨x, -, hx⟩ := List.mem_map.1 hmem
    rw [← hx, Option.isSome_some]

end

theorem outcome_readConstant (step : String) (node : Node) :
    ConstantOutcome step node (readConstant ((node.name?).getD "") step node) := by
  cases hsize : node.attribute? "size" with
  | none =>
    rw [readConstant, hsize, Option.bind_none]
    exact .unsized hsize
  | some text =>
    cases hshaped : Shape.read? text with
    | none =>
      rw [readConstant, hsize, Option.bind_some, hshaped]
      exact .misshapen hsize hshaped
    | some shape =>
      have hwritten :=
        valuesWritten_iff.2 (Eq.refl (Text.fullPieces separatesValues node.innerText))
      cases hvalues : readValues? (Text.fullPieces separatesValues node.innerText) with
      | none =>
        obtain ⟨p, hmem, hp⟩ := readValues?_eq_none_iff.1 hvalues
        rw [readConstant_of_notNumeral hsize hshaped hwritten hmem hp]
        exact .notNumeral hsize hshaped hwritten hmem hp
      | some values =>
        have hread := readValues?_eq_some_iff.1 hvalues
        rw [readConstant_of_values hsize hshaped hwritten hread]
        exact outcome_of_values hsize hshaped hwritten hread

theorem ConstantOutcome.readConstant_eq {step : String} {node : Node}
    {r : Except ModelError Matrix} (h : ConstantOutcome step node r) :
    readConstant ((node.name?).getD "") step node = r := by
  cases h with
  | unsized size => rw [readConstant, size, Option.bind_none]
  | misshapen size shape => rw [readConstant, size, Option.bind_some, shape]
  | notNumeral size shaped written mem unread =>
    exact readConstant_of_notNumeral size shaped written mem unread _
  | @miscounted text shape ps size shaped written numerals count =>
    cases hvalues : readValues? ps with
    | none =>
      obtain ⟨p, hmem, hp⟩ := readValues?_eq_none_iff.1 hvalues
      have hread := numerals p hmem
      rw [hp] at hread
      cases hread
    | some values =>
      have hread := readValues?_eq_some_iff.1 hvalues
      have hlength : ps.length = values.length := by simpa using congrArg List.length hread
      have hsize : values.toArray.size ≠ shape.count := fun heq => count (hlength.trans heq)
      rw [readConstant_of_values size shaped written hread, Matrix.ofArray,
        dif_pos (Shape.countable_of_readChars? shaped), dif_neg hsize]
      rfl
  | @matrix text ps A size shaped written count elements =>
    have hread := Matrix.map_readFloat?_eq_data_iff.2 ⟨count, elements⟩
    rw [readConstant_of_values size shaped written hread, Array.toArray_toList,
      Checked.ofArray_eq_ok A.countable A.size_data]
    rfl

theorem readConstant_eq_iff_outcome {step : String} {node : Node} {r : Except ModelError Matrix} :
    readConstant ((node.name?).getD "") step node = r ↔ ConstantOutcome step node r := by
  constructor
  · rintro rfl
    exact outcome_readConstant step node
  · exact ConstantOutcome.readConstant_eq

/-! ## A block of constants -/

/-- An element gives a variable: its name, and its matrix. -/
structure Gives (step : String) (node : Node) (v : Variable) : Prop where
  name : v.name = (node.name?).getD ""
  outcome : ConstantOutcome step node (.ok v.value)

/-- What a block of constants comes to. -/
inductive BlockOutcome (step : String) (nodes : List Node) : Except ModelError Workspace → Prop
  /-- The first element that gives no variable decides. -/
  | refused {before after : List Node} {node : Node} {e : ModelError}
      (split : nodes = before ++ node :: after)
      (constants : ∀ n ∈ before, ∃ A, ConstantOutcome step n (.ok A))
      (refusal : ConstantOutcome step node (.error e)) : BlockOutcome step nodes (.error e)
  /-- Every element gives a variable, and the workspace holds them as though they were set in
  order. -/
  | loaded {vs : List Variable} {W : Workspace} (constants : List.Forall₂ (Gives step) nodes vs)
      (holds : W.Refines vs) : BlockOutcome step nodes (.ok W)

/-- Reads the variable that an element gives. -/
def readVariable (step : String) (node : Node) : Except ModelError Variable :=
  (readConstant ((node.name?).getD "") step node).map (Variable.mk ((node.name?).getD ""))

theorem readVariable_eq_ok_iff {step : String} {node : Node} {v : Variable} :
    readVariable step node = .ok v ↔ Gives step node v := by
  constructor
  · intro h
    unfold readVariable at h
    cases hread : readConstant ((node.name?).getD "") step node with
    | error e =>
      rw [hread] at h
      cases h
    | ok A =>
      rw [hread] at h
      cases h
      exact ⟨rfl, readConstant_eq_iff_outcome.1 hread⟩
  · rintro ⟨hname, houtcome⟩
    rw [readVariable, houtcome.readConstant_eq, ← hname]
    rfl

theorem readVariable_eq_error_iff {step : String} {node : Node} {e : ModelError} :
    readVariable step node = .error e ↔ ConstantOutcome step node (.error e) := by
  rw [← readConstant_eq_iff_outcome, readVariable]
  cases readConstant ((node.name?).getD "") step node <;> simp [Except.map]

/-- The constants are read in turn, and set when they are all read. -/
theorem readConstants_eq_mapM (step : String) (nodes : List Node) (W : Workspace) :
    readConstants step nodes W = (nodes.mapM (readVariable step)).map W.setAll := by
  induction nodes generalizing W with
  | nil => rfl
  | cons node nodes ih =>
    rw [readConstants]
    cases hread : readConstant ((node.name?).getD "") step node with
    | error e =>
      have hnode : readVariable step node = .error e := by rw [readVariable, hread]; rfl
      rw [mapM_cons_of_error hnode]
      rfl
    | ok A =>
      have hnode : readVariable step node = .ok ⟨(node.name?).getD "", A⟩ := by
        rw [readVariable, hread]
        rfl
      rw [mapM_cons_of_ok hnode]
      dsimp only
      rw [ih]
      cases nodes.mapM (readVariable step) <;> rfl

theorem readConstants_eq_iff_blockOutcome {step : String} {nodes : List Node}
    {r : Except ModelError Workspace} :
    readConstants step nodes .empty = r ↔ BlockOutcome step nodes r := by
  have hinTurn {rs : Except ModelError (List Variable)} : nodes.mapM (readVariable step) = rs ↔
      InTurn (fun node q => readVariable step node = q) nodes rs :=
    mapM_eq_iff_inTurn fun _ _ => Iff.rfl
  rw [readConstants_eq_mapM]
  constructor
  · rintro rfl
    generalize hread : nodes.mapM (readVariable step) = rs
    cases hinTurn.1 hread with
    | refused split read refusal =>
      refine .refused split (fun node hnode => ?_) (readVariable_eq_error_iff.1 refusal)
      obtain ⟨v, hv⟩ := read node hnode
      exact ⟨v.value, (readVariable_eq_ok_iff.1 hv).outcome⟩
    | all read =>
      refine .loaded (read.imp fun node v hv => ?_) (Workspace.refines_setAll _)
      exact readVariable_eq_ok_iff.1 hv
  · intro h
    cases h with
    | refused split constants refusal =>
      rw [hinTurn.2 (.refused split (fun node hnode => ?_) (readVariable_eq_error_iff.2 refusal))]
      · rfl
      · obtain ⟨A, hA⟩ := constants node hnode
        exact ⟨⟨_, A⟩, readVariable_eq_ok_iff.2 ⟨rfl, hA⟩⟩
    | loaded constants holds =>
      have hread := constants.imp fun node v hv => readVariable_eq_ok_iff.2 hv
      rw [hinTurn.2 (.all hread), holds.eq_setAll]
      rfl

/-! ## Other layouts -/

/-- An element with the same name, size and pieces.  They may be laid out otherwise. -/
structure Respaced (node node' : Node) : Prop where
  name : node'.name? = node.name?
  size : node'.attribute? "size" = node.attribute? "size"
  pieces : ∃ ps, LaidOut separatesValues ps node.innerText ∧
    LaidOut separatesValues ps node'.innerText

theorem Respaced.readConstant_eq {node node' : Node} (h : Respaced node node')
    (name step : String) : readConstant name step node' = readConstant name step node := by
  obtain ⟨ps, hps, hps'⟩ := h.pieces
  rw [readConstant, readConstant, h.size, hps.fullPieces_eq keepsBlanks_separatesValues,
    hps'.fullPieces_eq keepsBlanks_separatesValues]

theorem readConstants_of_respaced {nodes nodes' : List Node}
    (h : List.Forall₂ Respaced nodes nodes') (step : String) (W : Workspace) :
    readConstants step nodes' W = readConstants step nodes W := by
  induction h generalizing W with
  | nil => rfl
  | cons hnode _ ih =>
    rw [readConstants, readConstants, hnode.name, hnode.readConstant_eq]
    cases readConstant _ step _ with
    | error e => rfl
    | ok A => exact ih _

/-- Reading a block of constants gives the error of the first element that is no constant, or the
matrices of all of them, the first spelling and the last matrix of each name.  How the pieces of the
texts are laid out makes no difference. -/
theorem readConstants_eq_iff_outcome (step : String) (block : Node) :
    (∀ r, readConstants step block.elements .empty = r ↔ BlockOutcome step block.elements r) ∧
      ∀ block' : Node, List.Forall₂ Respaced block.elements block'.elements →
        readConstants step block'.elements .empty = readConstants step block.elements .empty :=
  ⟨fun _ => readConstants_eq_iff_blockOutcome, fun _ h => readConstants_of_respaced h step .empty⟩

/-- A block with a row of two gains, and the row again under another spelling. -/
def gains (row again : String) : Node :=
  let constant (name text : String) : Node :=
    .element name [⟨⟨"", "size"⟩, "[1, 2]"⟩] [.text text.toList []] []
  .element "constants" [] [constant "Gain" row, constant "GAIN" again] []

/-- It does not matter that a value is missing where another is no numeral.  Blank pieces and other
separators change nothing. -/
theorem readConstants_eq_iff_outcome_gains :
    BlockOutcome "scale" (gains "1,2" "x").elements (.error (.unparsableConstant "GAIN" "scale")) ∧
      List.Forall₂ Respaced (gains "1,2" "x").elements (gains " 1;; 2" "x ,").elements ∧
        readConstants "scale" (gains " 1;; 2" "x ,").elements .empty =
          readConstants "scale" (gains "1,2" "x").elements .empty := by
  have hrefused : readConstants "scale" (gains "1,2" "x").elements .empty =
      .error (.unparsableConstant "GAIN" "scale") :=
    refusal?_eq_some_iff.1 (by decide +kernel)
  have hpiece (p : List Char) := Text.laidOut_singleton separatesValues p
  have hspaced (p : List Char) : LaidOut separatesValues [p] ([' '] ++ p ++ []) := .piece p rfl rfl
  have hbehind (p : List Char) : LaidOut separatesValues [p] ([] ++ p ++ [' ']) := .piece p rfl rfl
  have hblank : LaidOut separatesValues [] [] := .blank rfl
  have hrow : Respaced (gains "1,2" "x").elements[0] (gains " 1;; 2" "x ,").elements[0] := by
    refine ⟨rfl, rfl, [['1'], ['2']], ?_, ?_⟩
    · exact .join rfl (hpiece ['1']) (hpiece ['2'])
    · exact .join rfl (hspaced ['1']) (.join rfl hblank (hspaced ['2']))
  have hagain : Respaced (gains "1,2" "x").elements[1] (gains " 1;; 2" "x ,").elements[1] := by
    refine ⟨rfl, rfl, [['x']], ?_, ?_⟩
    · exact hpiece ['x']
    · exact .join rfl (hbehind ['x']) hblank
  have hrespaced : List.Forall₂ Respaced (gains "1,2" "x").elements
      (gains " 1;; 2" "x ,").elements := .cons hrow (.cons hagain .nil)
  exact ⟨((readConstants_eq_iff_outcome "scale" (gains "1,2" "x")).1 _).1 hrefused, hrespaced,
    (readConstants_eq_iff_outcome "scale" (gains "1,2" "x")).2 _ hrespaced⟩

end Model

end ModelScoring
