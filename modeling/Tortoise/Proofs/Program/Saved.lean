import Tortoise.Program.Store
import Tortoise.Proofs.Compile.Extent
import Tortoise.Proofs.Disk.Written

/-!
# Compiled programs that are saved

A compiled program can always be saved, and it is loaded again unchanged if it is within the limits
of reading. Compiling knows no such limits: it bounds the bytes of an expression, not its depth,
and it does not bound the size of a program at all.
-/

namespace Tortoise

namespace Disk

variable {d d' : Disk} {path : String} {b : Bytes}

def save (d : Disk) (path : String) (p : Program) : Except SaveError Unit × Disk :=
  StateT.run (m := Id) (p.save path) d

def load (d : Disk) (options : SourceOptions) (path : String) : Except LoadError Program × Disk :=
  StateT.run (m := Id) (Program.load options path) d

theorem save_eq {p : Program} (hencode : Binary.encode p = .ok b)
    (hwrite : d.write path b = .ok d') : d.save path p = (.ok (), d') := by
  simp only [save, Program.save, hencode, FileSystem.write, StateT.run_bind, StateT.run_get,
    pure_bind, hwrite]
  rfl

theorem load_eq (options : SourceOptions) (hpath : Path.isCompiled path = true)
    (hread : d.read path = .ok b) : d.load options path =
      (match Binary.decode b with
        | .ok p => .ok p
        | .error e => .error (.format path e), d) := by
  simp only [load, Program.load, hpath, FileSystem.read, Bool.not_true, Bool.false_eq_true,
    if_false, StateT.run_bind, StateT.run_get, StateT.run_pure, pure_bind, hread]
  cases Binary.decode b <;> rfl

end Disk

/-- A compiled program can be saved. If it is within the limits of reading, it is loaded again, and
otherwise the file is refused. Short expressions are within the limits. -/
theorem compiled_programs_reload {bound : Nat} {source : Text} {p : Program}
    (hbound : bound < 2 ^ 63) (hsize : p.size < 2 ^ 63) (hcompile : compile bound source = .ok p) :
    ∃ b, Binary.encode p = .ok b ∧ (p.WithinLimits → Binary.decode b = .ok p) ∧
      (¬ p.WithinLimits → Binary.Refused b) ∧
      (bound + 4 ≤ Cbor.maxNesting → (p.WithinLimits ↔ p.size ≤ Cbor.maxCount)) ∧
      ∀ (path : String) (d d' : Disk), Path.isCompiled path = true → d.write path b = .ok d' →
        d.save path p = (.ok (), d') ∧
        ∀ options : SourceOptions,
          (p.WithinLimits → d'.load options path = (.ok p, d')) ∧
          (¬ p.WithinLimits → ∃ e, d'.load options path = (.error (.format path e), d')) := by
  obtain ⟨hvalid, hsound⟩ := sound_of_compile hbound hsize hcompile
  obtain ⟨b, hencode, hsame, hrefused⟩ := Binary.recode_of_sound hvalid hsize hsound
  refine ⟨b, hencode, hsame, hrefused, fun hshort => ?_, fun path d d' hpath hwrite => ?_⟩
  · refine ⟨Program.WithinLimits.size_le, fun hcount => ⟨hcount, fun ins hmem => ?_⟩⟩
    have hdepth := (hsound ins hmem).depth_le
    omega
  · refine ⟨Disk.save_eq hencode hwrite, fun options => ?_⟩
    have hload := Disk.load_eq options hpath (Disk.read_of_write hwrite)
    refine ⟨fun hlimits => ?_, fun hlimits => ?_⟩
    · rw [hload, hsame hlimits]
    · obtain ⟨e, he, -⟩ := hrefused hlimits
      exact ⟨e, by rw [hload, he]⟩

/-- A loop is loaded as it was saved. -/
theorem saved_repeat_reloads :
    ∃ p d, compile 256 (Text.ofString "repeat 2 times move 1 end") = .ok p ∧ p.size = 6 ∧
      Disk.save {} "a.robc" p = (.ok (), d) ∧ d.load {} "a.robc" = (.ok p, d) := by
  let body : Body :=
    .block (.repeatLoop (.literal 2)) (.simple (.act .move (.literal 1)) .done) .done
  let tokens : List Token := [⟨.keyword, Text.ofString "repeat", ⟨1, 1⟩⟩,
    ⟨.expression, Text.ofString "2", ⟨1, 8⟩⟩, ⟨.keyword, Text.ofString "times", ⟨1, 10⟩⟩,
    ⟨.keyword, Text.ofString "move", ⟨1, 16⟩⟩, ⟨.expression, Text.ofString "1", ⟨1, 21⟩⟩,
    ⟨.keyword, Text.ofString "end", ⟨1, 23⟩⟩]
  have htokens : (Feed.ofText (Text.ofString "repeat 2 times move 1 end") none).tokens =
      (tokens, .ok ⟨.eof, [], ⟨1, 26⟩⟩) := rfl
  have htwo : Token.Reads 256 ⟨.expression, Text.ofString "2", ⟨1, 8⟩⟩ (.literal 2) :=
    Token.reads_numeral _ (by decide) (by decide) (by decide)
  have hone : Token.Reads 256 ⟨.expression, Text.ofString "1", ⟨1, 21⟩⟩ (.literal 1) :=
    Token.reads_numeral _ (by decide) (by decide) (by decide)
  have hbody : body.Derives 256 tokens :=
    .block (.repeatLoop rfl htwo rfl) (.simple (.move rfl hone) .done) rfl .done
  have hcompile := compile_of_derives htokens hbody
  have hsize : body.program.size = 6 := rfl
  obtain ⟨b, -, -, -, hshort, hfiles⟩ :=
    compiled_programs_reload (by decide) (hsize ▸ by decide) hcompile
  have hlimits : body.program.WithinLimits := (hshort (by decide)).2 (hsize ▸ by decide)
  have hwrite : Disk.write {} "a.robc" b = .ok ⟨[(["a.robc"], b)], []⟩ := rfl
  obtain ⟨hsave, hload⟩ := hfiles "a.robc" _ _ (by decide) hwrite
  exact ⟨_, _, hcompile, hsize, hsave, (hload {}).1 hlimits⟩

def Text.Flat (t : Text) : Prop := ∀ r ∈ t, ∃ c, r = .char c ∧ c ≠ '"' ∧ c ≠ '(' ∧ c ≠ ')'

theorem Feed.readFrom_flat {inner : Text} (h : inner.Flat) (rest : Text) (p : Position) :
    ∃ cells q, readFrom none none p (inner ++ rest) =
      { readFrom none none q rest with cells := cells ++ (readFrom none none q rest).cells } ∧
      cells.map Cell.rune = inner := by
  induction inner generalizing p with
  | nil => exact ⟨[], p, rfl, rfl⟩
  | cons r inner ih =>
      obtain ⟨⟨c, rfl, hquote, -⟩, hinner⟩ := List.forall_mem_cons.1 h
      obtain ⟨cells, q, hread, hcells⟩ := ih hinner (p.after c)
      refine ⟨⟨c, p⟩ :: cells, q, ?_, congrArg (Rune.char c :: ·) hcells⟩
      exact (if_neg hquote).trans (congrArg (cons ⟨c, p⟩) hread)

theorem takeGroup_flat {cells : List Cell} (h : Text.Flat (cells.map Cell.rune)) (close : Position)
    (rest : List Cell) : takeGroup 1 (cells ++ ⟨')', close⟩ :: rest) =
      some (cells ++ [⟨')', close⟩], rest) := by
  induction cells with
  | nil => rfl
  | cons c cells ih =>
      obtain ⟨⟨_, heq, -, hopen, hclose⟩, hcells⟩ := List.forall_mem_cons.1 h
      obtain rfl := Rune.char.inj heq
      rw [List.cons_append, takeGroup, if_neg hopen, if_neg (fun h => hclose h.1), if_neg hclose,
        ih hcells]
      rfl

theorem nextGroup_flat {cells : List Cell} (h : Text.Flat (cells.map Cell.rune))
    (start close : Position) (ending : Ending) :
    Feed.nextGroup ⟨'(', start⟩ ⟨⟨'(', start⟩ :: (cells ++ [⟨')', close⟩]), ending⟩ =
      (.ok ⟨.expression, .char '(' :: (cells.map Cell.rune ++ [.char ')']), start⟩,
        ⟨[], ending⟩) := by
  have hgroup : takeGroup 0 (⟨'(', start⟩ :: (cells ++ [⟨')', close⟩])) =
      some (⟨'(', start⟩ :: (cells ++ [⟨')', close⟩]), []) := by
    change (takeGroup 1 (cells ++ [⟨')', close⟩])).map _ = _
    rw [takeGroup_flat h close []]
    rfl
  simp [Feed.nextGroup, hgroup, Cell.rune]

/-- The tokens of a move by a flat text in parentheses. -/
theorem tokens_move {inner : Text} (h : inner.Flat) : ∃ eof,
    (Feed.ofText (Text.ofString "move (" ++ (inner ++ [.char ')'])) none).tokens =
      ([⟨.keyword, Text.ofString "move", ⟨1, 1⟩⟩,
        ⟨.expression, .char '(' :: (inner ++ [.char ')']), ⟨1, 6⟩⟩], .ok eof) := by
  obtain ⟨cells, q, hread, rfl⟩ := Feed.readFrom_flat h [.char ')'] ⟨1, 7⟩
  let word : List Cell := [⟨'m', ⟨1, 1⟩⟩, ⟨'o', ⟨1, 2⟩⟩, ⟨'v', ⟨1, 3⟩⟩, ⟨'e', ⟨1, 4⟩⟩]
  let group : List Cell := ⟨'(', ⟨1, 6⟩⟩ :: (cells ++ [⟨')', q⟩])
  let ending : Ending := .eof (q.after ')')
  have hfeed : Feed.ofText (Text.ofString "move (" ++ (cells.map Cell.rune ++ [.char ')'])) none =
      ⟨word ++ ⟨' ', ⟨1, 5⟩⟩ :: group, ending⟩ := by
    change Feed.cons _ (Feed.cons _ (Feed.cons _ (Feed.cons _ (Feed.cons _ (Feed.cons _
      (Feed.readFrom none none ⟨1, 7⟩ (cells.map Cell.rune ++ [.char ')']))))))) = _
    rw [hread]
    rfl
  have hword : Feed.next ⟨word ++ ⟨' ', ⟨1, 5⟩⟩ :: group, ending⟩ =
      (.ok ⟨.keyword, Text.ofString "move", ⟨1, 1⟩⟩, ⟨⟨' ', ⟨1, 5⟩⟩ :: group, ending⟩) := rfl
  have hgroup : Feed.next ⟨⟨' ', ⟨1, 5⟩⟩ :: group, ending⟩ =
      (.ok ⟨.expression, .char '(' :: (cells.map Cell.rune ++ [.char ')']), ⟨1, 6⟩⟩,
        ⟨[], ending⟩) := nextGroup_flat h ⟨1, 6⟩ q ending
  have hend : Feed.next ⟨[], ending⟩ = (.ok ⟨.eof, [], q.after ')'⟩, ⟨[], ending⟩) := rfl
  refine ⟨⟨.eof, [], q.after ')'⟩, ?_⟩
  rw [hfeed]
  change Feed.tokensUpTo (group.length + 5) _ = _
  simp only [Feed.tokensUpTo, hword, hgroup, hend, reduceCtorEq, if_false, if_true]

def signs : (count : Nat) → Text
  | 0 => [.char '1']
  | count + 1 => .char '-' :: signs count

theorem flat_signs (count : Nat) : (signs count).Flat := by
  induction count with
  | zero => exact List.forall_mem_singleton.2 ⟨'1', rfl, by decide⟩
  | succ count ih => exact List.forall_mem_cons.2 ⟨⟨'-', rfl, by decide⟩, ih⟩

theorem size_signs (count : Nat) : (signs count).size = count + 1 := by
  induction count with
  | zero => rfl
  | succ count ih =>
      rw [signs, Text.size_cons, ih, Nat.add_comm]
      rfl

theorem derives_signs (count : Nat) :
    Expr.Derives .unary (signs count) (Expr.negated count (.literal 1)) := by
  induction count with
  | zero =>
      have hone : (signs 0).isNumeral = true ∧ (signs 0).numeralValue = 1 := ⟨rfl, rfl⟩
      exact .operand (.number Text.blank_nil Text.blank_nil hone.1 (by decide))
  | succ count ih =>
      have hsign : Prefix.negate.isKnown = true := rfl
      exact .sign hsign Text.blank_nil ih

def signedMove (count : Nat) : Text := Text.ofString "move (" ++ (signs count ++ [.char ')'])

theorem compile_signedMove {bound count : Nat} (h : count + 3 ≤ bound) :
    compile bound (signedMove count) = .ok #[.act .move (Expr.negated count (.literal 1))] := by
  obtain ⟨eof, htokens⟩ := tokens_move (flat_signs count)
  have hparse : Expr.parse bound (.char '(' :: (signs count ++ [.char ')'])) =
      .ok (Expr.negated count (.literal 1)) := by
    refine Expr.parse_atom ?_ ?_
    · rw [Text.size_cons, Text.size_append, size_signs]
      change 1 + (count + 1 + 1) ≤ bound
      omega
    · have hlogic : Expr.Derives .logic (signs count) (Expr.negated count (.literal 1)) :=
        .operand (.operand (.operand (.operand (derives_signs count))))
      have hatom := Expr.Derives.group Text.blank_nil Text.blank_nil hlogic
      rwa [List.nil_append, List.append_nil] at hatom
  have hreads : Token.Reads bound ⟨.expression, .char '(' :: (signs count ++ [.char ')']), ⟨1, 6⟩⟩
      (Expr.negated count (.literal 1)) := ⟨rfl, hparse⟩
  have hword : Token.is ⟨.keyword, Text.ofString "move", ⟨1, 1⟩⟩ .move = true := rfl
  exact compile_of_derives htokens (.simple (.move hword hreads) .done)

/-- The distance of such a move is one level deeper than it has signs. -/
theorem refused_signedMove {bound count : Nat} (hbound : bound < 2 ^ 63) (hfits : count + 3 ≤ bound)
    (hdeep : Cbor.maxNesting < 4 + count) :
    ∃ p b, compile bound (signedMove count) = .ok p ∧ Binary.encode p = .ok b ∧
      Binary.Refused b := by
  have hcompile := compile_signedMove hfits
  obtain ⟨hvalid, hsound⟩ := sound_of_compile hbound (by simp) hcompile
  obtain ⟨b, hencode, -, hrefused⟩ := Binary.recode_of_sound hvalid (by simp) hsound
  refine ⟨_, b, hcompile, hencode, hrefused fun hlimits => ?_⟩
  have hdepth := hlimits.depth_le _ (Array.mem_singleton.2 rfl)
  rw [Instruction.act, Expr.depth_negated, Expr.depth] at hdepth
  omega

/-- A distance under as many signs as there are levels is saved but not loaded. -/
theorem deep_signs_stay_unread :
    ∃ p b d, compile 5000 (signedMove 1021) = .ok p ∧ Binary.encode p = .ok b ∧
      Binary.Refused b ∧ Disk.save {} "a.robc" p = (.ok (), d) ∧
      ∀ options, ∃ e, d.load options "a.robc" = (.error (.format "a.robc" e), d) := by
  obtain ⟨p, b, hcompile, hencode, hrefused⟩ :=
    refused_signedMove (show 5000 < 2 ^ 63 by decide) (show 1021 + 3 ≤ 5000 by decide) (by decide)
  have hwrite : Disk.write {} "a.robc" b = .ok ⟨[(["a.robc"], b)], []⟩ := rfl
  obtain ⟨e, hdecode, -⟩ := hrefused
  refine ⟨p, b, _, hcompile, hencode, ⟨e, hdecode, e.exists_message_eq⟩,
    Disk.save_eq hencode hwrite, fun options => ⟨e, ?_⟩⟩
  rw [Disk.load_eq options (by decide) (Disk.read_of_write hwrite), hdecode]

end Tortoise
