import Semijoin.Plan.Explain
import Semijoin.Proofs.Alphabet
import Semijoin.Proofs.Built

/-!
# Reading an explained plan

Every line of an explained plan has the header of one node, behind an indentation that tells its
depth. `HeaderTree.ofText?` rebuilds the tree of headers from the text. It gets back what was
explained if no name, string or foreign text in the plan has a line break, so plans with the same
text have the same tree of headers. Headers may look like anything else: the indentation ends at the
first arrow, and the root has none.
-/

namespace Semijoin

/-! ## Texts without line breaks -/

/-- Whether a text stays on one line. -/
def Text.OneLine (t : Text) : Prop := .char '\n' ∉ t.points

instance (t : Text) : Decidable t.OneLine := inferInstanceAs (Decidable (_ ∉ _))

namespace Text

variable {s t : Text}

@[simp] theorem oneLine_append : (s ++ t).OneLine ↔ s.OneLine ∧ t.OneLine := by
  change _ ∉ s.points ++ t.points ↔ _
  simp [OneLine, not_or]

@[simp] theorem oneLine_ofString {s : String} : (ofString s).OneLine ↔ Semijoin.OneLine s := by
  simp only [OneLine, ofString, ofChars, List.mem_map, CodePoint.char.injEq, exists_eq_right, Over]
  grind

theorem oneLine_join {separator : Text} {ts : List Text} (hs : separator.OneLine)
    (h : ∀ t ∈ ts, t.OneLine) : (join separator ts).OneLine := by
  fun_induction join separator ts with
  | case1 => simp [OneLine]
  | case2 t => exact h t (by simp)
  | case3 t ts hne ih =>
    simp only [oneLine_append]
    exact ⟨⟨h t (by simp), hs⟩, ih fun u hu => h u (by simp [hu])⟩

section Split

variable {c : Char} {p : CodePoint} {ps : List CodePoint} {part : Text} {parts : List Text}

theorem split_cons_of_ne (hp : p ≠ .char c) (h : split c ⟨ps⟩ = part :: parts) :
    split c ⟨p :: ps⟩ = ⟨p :: part.points⟩ :: parts := by
  unfold split at h ⊢
  rw [List.foldr_cons, h]
  exact if_neg hp

theorem split_ne_nil (c : Char) (ps : List CodePoint) : split c ⟨ps⟩ ≠ [] := by
  cases ps with
  | nil => simp [split]
  | cons p ps =>
    rw [split, List.foldr_cons]
    split
    · simp
    · split <;> simp

theorem split_break (c : Char) (ps : List CodePoint) :
    split c ⟨.char c :: ps⟩ = ⟨[]⟩ :: split c ⟨ps⟩ := by
  obtain ⟨part, parts, h⟩ := List.exists_cons_of_ne_nil (split_ne_nil c ps)
  rw [h]
  unfold split at h ⊢
  rw [List.foldr_cons, h]
  exact if_pos rfl

theorem split_of_notMem (h : .char c ∉ ps) : split c ⟨ps⟩ = [⟨ps⟩] := by
  induction ps with
  | nil => rfl
  | cons p ps ih =>
    obtain ⟨hp, hps⟩ : _ ≠ p ∧ _ ∉ ps := by simpa using h
    exact split_cons_of_ne (Ne.symm hp) (ih hps)

/-- The part in front of the first separator is split off. -/
theorem split_append_break (h : .char c ∉ ps) (rest : List CodePoint) :
    split c ⟨ps ++ .char c :: rest⟩ = ⟨ps⟩ :: split c ⟨rest⟩ := by
  induction ps with
  | nil => exact split_break c rest
  | cons p ps ih =>
    obtain ⟨hp, hps⟩ : _ ≠ p ∧ _ ∉ ps := by simpa using h
    exact split_cons_of_ne (Ne.symm hp) (ih hps)

end Split

/-- Lines that are joined are split where they were joined. -/
theorem split_join {lines : List Text} (hne : lines ≠ []) (h : ∀ l ∈ lines, l.OneLine) :
    (join "\n" lines).split '\n' = lines := by
  fun_induction join "\n" lines with
  | case1 => exact absurd rfl hne
  | case2 t => exact split_of_notMem (h t (by simp))
  | case3 t ts hts ih =>
    have hrest := ih hts fun l hl => h l (by simp [hl])
    have hbreak : (t ++ "\n" ++ join "\n" ts : Text) =
        ⟨t.points ++ .char '\n' :: (join "\n" ts).points⟩ :=
      congrArg Text.mk (List.append_assoc t.points [.char '\n'] _)
    rw [hbreak, split_append_break (h t (by simp)), hrest]

end Text

/-! ## The texts in a plan -/

/-- The text that a literal shows as it is. Any other value shows no line break. -/
def Literal.texts (l : Literal) : List Text :=
  match l.value with
  | .str s => [s]
  | _ => []

/-- The names, strings and foreign texts that an expression shows as they are. -/
def Expr.texts : Expr → List Text
  | col c => c.name.toList
  | lit l => l.texts
  | bin _ left right => left.texts ++ right.texts
  | un _ operand => operand.texts
  | foreign f => [f.sql]

/-- The texts that the header of a node shows as they are. -/
def Plan.ownTexts : Plan → List Text
  | scan _ relation fields => relation :: fields.map Field.name
  | filter _ _ predicate => predicate.texts
  | project _ _ outputs => outputs.flatMap fun o => o.name :: o.expr.texts
  | join _ _ _ _ condition => (condition.map Expr.texts).getD []
  | foreign _ kind _ => [kind.name]

/-- All texts that a plan shows as they are: the names of relations, columns and kinds of node,
strings, and the texts of foreign expressions. -/
def Plan.texts (p : Plan) : List Text := p.nodes.flatMap ownTexts

theorem Value.oneLine_plain {x : Value} (h : ∀ s, x = .str s → s.OneLine) : x.plain.OneLine := by
  cases x with
  | str s => exact h s rfl
  | decimal d => exact Text.oneLine_ofString.mpr (over_decimalText d).oneLine
  | fraction q => exact Text.oneLine_ofString.mpr (over_fractionText_rat q).oneLine
  | date d => exact Text.oneLine_ofString.mpr (over_isoText d).oneLine
  | datetime t =>
    exact Text.oneLine_ofString.mpr (over_isoText_dateTime (by decide) t).oneLine
  | _ => exact Text.oneLine_ofString.mpr (oneLine_quoted _)

theorem Literal.oneLine_sql {l : Literal} (h : ∀ t ∈ l.texts, t.OneLine) : l.sql.OneLine := by
  have hplain : l.value.plain.OneLine := by
    refine Value.oneLine_plain fun s hs => h s ?_
    simp [texts, hs]
  unfold sql
  split_ifs
  · simp only [Text.oneLine_ofString]
    decide
  · simp only [Text.oneLine_append, Text.oneLine_ofString, hplain, and_true]
    decide
  · exact hplain

theorem Column.oneLine_sql {c : Column} (h : ∀ t ∈ c.name, t.OneLine) : c.sql.OneLine := by
  have hindex : (s!"${c.index}" : Text).OneLine := by
    simp only [Text.oneLine_ofString, over_append]
    exact ⟨by decide, (over_toString_int _).oneLine⟩
  unfold sql
  split
  · exact hindex
  · next name hname =>
    split
    · exact hindex
    · exact h name hname

theorem Expr.oneLine_sql {e : Expr} (h : ∀ t ∈ e.texts, t.OneLine) : e.sql.OneLine := by
  induction e with
  | col c => exact Column.oneLine_sql fun t ht => h t (Option.mem_toList.mpr ht)
  | lit l => exact Literal.oneLine_sql h
  | bin op left right ihl ihr =>
    have hleft := ihl fun t ht => h t (List.mem_append_left _ ht)
    have hright := ihr fun t ht => h t (List.mem_append_right _ ht)
    have hsymbol : OneLine op.symbol := by cases op <;> decide
    simp only [sql, Text.oneLine_append, Text.oneLine_ofString, hleft, hright, hsymbol]
    decide
  | un op operand ih =>
    have hoperand := ih h
    have hsymbol : OneLine op.symbol := by cases op <;> decide
    unfold sql
    split <;> simp only [Text.oneLine_append, Text.oneLine_ofString, hoperand, hsymbol] <;> decide
  | foreign f => exact h f.sql (by simp [texts])

/-- Hints are numbers. -/
theorem HintRecord.get?_ne_str (r : HintRecord) (hint : Hint) (s : Text) :
    r.get? hint ≠ some (.str s) := by
  intro h
  cases hint with
  | keyCardinality | valuesPerKey | bytesPerRecord =>
    obtain ⟨x, -, hx⟩ := Option.map_eq_some_iff.mp h
    cases hx
  | recordsPerCall => cases h

theorem HintRecord.oneLine_pairsText (r : HintRecord) : (pairsText r.known).OneLine := by
  refine Text.oneLine_join (by simp only [Text.oneLine_ofString]; decide) fun t ht => ?_
  obtain ⟨⟨name, value⟩, hmem, rfl⟩ := List.mem_map.mp ht
  obtain ⟨hint, -, hget⟩ := List.mem_filterMap.mp hmem
  obtain ⟨x, hx, heq⟩ := Option.map_eq_some_iff.mp hget
  obtain ⟨rfl, rfl⟩ := Prod.mk.inj heq
  have hname : OneLine hint.name := by cases hint <;> decide
  have hvalue : x.plain.OneLine :=
    Value.oneLine_plain fun s hs => absurd (hs ▸ hx) (r.get?_ne_str hint s)
  simp only [Text.oneLine_append, Text.oneLine_ofString, hname, hvalue]
  decide

namespace Plan

variable {p : Plan} (hints : Plan → Option HintRecord)

theorem oneLine_detail (h : ∀ t ∈ p.ownTexts, t.OneLine) : p.detail.OneLine := by
  cases p with
  | scan id relation fields =>
    simp only [ownTexts, List.forall_mem_cons] at h
    obtain ⟨hrelation, hfields⟩ := h
    have hcolumns : (Text.join ", " (fields.map Field.name)).OneLine :=
      Text.oneLine_join (by simp only [Text.oneLine_ofString]; decide) hfields
    simp only [detail, columnNames, schema, Text.oneLine_append, Text.oneLine_ofString, hrelation,
      hcolumns]
    decide
  | filter id input predicate =>
    simp only [detail, Text.oneLine_append, Text.oneLine_ofString, Expr.oneLine_sql h]
    decide
  | project id input outputs =>
    simp only [ownTexts, List.mem_flatMap] at h
    have hitems :
        (Text.join ", " (outputs.map fun o => o.expr.sql ++ " AS " ++ o.name)).OneLine := by
      refine Text.oneLine_join (by simp only [Text.oneLine_ofString]; decide) fun t ht => ?_
      obtain ⟨o, ho, rfl⟩ := List.mem_map.mp ht
      have hname := h o.name ⟨o, ho, by simp⟩
      have hexpr := Expr.oneLine_sql fun t ht => h t ⟨o, ho, List.mem_cons_of_mem _ ht⟩
      simp only [Text.oneLine_append, Text.oneLine_ofString, hname, hexpr]
      decide
    simp only [detail, Text.oneLine_append, Text.oneLine_ofString, hitems]
    decide
  | join id kind left right condition =>
    have hkind : OneLine kind.name := by cases kind <;> decide
    have hcondition : ((condition.map Expr.sql).getD "TRUE" : Text).OneLine := by
      cases condition with
      | none => exact Text.oneLine_ofString.mpr (by decide)
      | some e => exact Expr.oneLine_sql h
    simp only [detail, Text.oneLine_append, Text.oneLine_ofString, hkind, hcondition]
    decide
  | foreign id kind input =>
    simp only [detail, Text.oneLine_ofString]
    decide

theorem oneLine_header (h : ∀ t ∈ p.ownTexts, t.OneLine) : (p.header hints).OneLine := by
  have hdetail := oneLine_detail h
  have hhints : (HintRecord.pairsText (p.knownHints hints)).OneLine := by
    unfold knownHints
    cases hints p with
    | none => simp [HintRecord.pairsText, Text.join, Text.OneLine]
    | some r => exact r.oneLine_pairsText
  have hkind : OneLine p.kindName := by
    cases p with
    | foreign id kind children =>
      exact Text.oneLine_ofString.mp (h kind.name (by simp [ownTexts]))
    | _ => simp only [kindName]; decide
  simp only [header, Text.oneLine_append, Text.oneLine_ofString, hkind, true_and]
  constructor
  · split
    · simp only [Text.oneLine_ofString]
      decide
    · simp only [Text.oneLine_append, Text.oneLine_ofString, hdetail, and_true]
      decide
  · split
    · simp only [Text.oneLine_ofString]
      decide
    · simp only [Text.oneLine_append, Text.oneLine_ofString, hhints]
      decide

end Plan

/-! ## Trees of headers -/

/-- A tree of headers. -/
inductive HeaderTree where
  | node (header : Text) (below : List HeaderTree)

namespace HeaderTree

mutual

/-- The headers of a tree whose root is at a depth, each with its own depth and before those below
it. -/
def entries (depth : Nat) : HeaderTree → List (Nat × Text)
  | node header below => (depth, header) :: entriesOfList (depth + 1) below

def entriesOfList (depth : Nat) : List HeaderTree → List (Nat × Text)
  | [] => []
  | t :: ts => t.entries depth ++ entriesOfList depth ts

end

theorem entriesOfList_eq (depth : Nat) (ts : List HeaderTree) :
    entriesOfList depth ts = ts.flatMap (entries depth) := by
  induction ts with
  | nil => rfl
  | cons t ts ih => rw [entriesOfList, ih, List.flatMap_cons]

/-- Puts an entry in front of the trees of the entries behind it. Those deeper than the entry, up to
the first one that is not, are below it. -/
def attach (entry : Nat × Text) (behind : List (Nat × HeaderTree)) : List (Nat × HeaderTree) :=
  let deeper (t : Nat × HeaderTree) : Bool := entry.1 < t.1
  (entry.1, node entry.2 ((behind.takeWhile deeper).map Prod.snd)) :: behind.dropWhile deeper

/-- The tree of a list of entries, if they have one root. -/
def ofEntries? (entries : List (Nat × Text)) : Option HeaderTree :=
  match entries.foldr attach [] with
  | [(_, t)] => some t
  | _ => none

/-- The depth and the header that an indented line shows: two blanks are one level, and an arrow
stands before the header. -/
def entryOfLine (line : Text) : Nat × Text :=
  let blanks := (line.points.takeWhile (· = .char ' ')).length
  (blanks / 2, ⟨line.points.drop (blanks + 3)⟩)

/-- Rebuilds the tree from its text. The first line is the header of the root, whatever it starts
with. -/
def ofText? (t : Text) : Option HeaderTree :=
  match t.split '\n' with
  | [] => none
  | root :: lines => ofEntries? ((0, root) :: lines.map entryOfLine)

variable {depth : Nat} {behind : List (Nat × HeaderTree)}

/-- Whether nothing behind can belong below an entry of a depth. -/
def Closed (depth : Nat) (behind : List (Nat × HeaderTree)) : Prop :=
  ∀ t ∈ behind.head?, t.1 ≤ depth

theorem Closed.succ (h : Closed depth behind) : Closed (depth + 1) behind :=
  fun t ht => Nat.le_succ_of_le (h t ht)

theorem closed_cons (t : HeaderTree) : Closed depth ((depth, t) :: behind) := by
  simp [Closed]

theorem attach_map_append (header : Text) (below : List HeaderTree) (h : Closed depth behind) :
    attach (depth, header) (below.map (depth + 1, ·) ++ behind) =
      (depth, node header below) :: behind := by
  have hdeeper : ∀ t ∈ below.map (depth + 1, ·), decide (depth < t.1) = true := by
    simp
  have htake : behind.takeWhile (fun t => depth < t.1) = [] := by
    cases behind with
    | nil => rfl
    | cons t ts => simp [h t rfl]
  have hdrop : behind.dropWhile (fun t => depth < t.1) = behind := by
    cases behind with
    | nil => rfl
    | cons t ts => simp [h t rfl]
  simp only [attach, List.takeWhile_append_of_pos hdeeper, List.dropWhile_append_of_pos hdeeper,
    htake, hdrop]
  simp [Function.comp_def]

mutual

/-- Scanning the entries of a tree from the end leaves the tree in front of what was there. -/
theorem foldr_attach_entries : (t : HeaderTree) → ∀ {depth behind}, Closed depth behind →
    (t.entries depth).foldr attach behind = (depth, t) :: behind
  | node header below, depth, behind, h => by
    rw [entries, List.foldr_cons, foldr_attach_entriesOfList below h.succ,
      attach_map_append header below h]

theorem foldr_attach_entriesOfList : (ts : List HeaderTree) → ∀ {depth behind},
    Closed depth behind →
      (entriesOfList depth ts).foldr attach behind = ts.map (depth, ·) ++ behind
  | [], _, _, _ => rfl
  | t :: ts, depth, behind, h => by
    have hclosed : Closed depth (ts.map (depth, ·) ++ behind) := by
      cases ts with
      | nil => exact h
      | cons u us => exact closed_cons u
    rw [entriesOfList, List.foldr_append, foldr_attach_entriesOfList ts h,
      foldr_attach_entries t hclosed]
    rfl

end

mutual

theorem le_of_mem_entries : {t : HeaderTree} → ∀ {depth e}, e ∈ t.entries depth → depth ≤ e.1
  | node header below, depth, e, h => by
    obtain rfl | h := List.mem_cons.mp h
    · exact Nat.le_refl depth
    · exact Nat.le_of_succ_le (le_of_mem_entriesOfList h)

theorem le_of_mem_entriesOfList : {ts : List HeaderTree} → ∀ {depth e},
    e ∈ entriesOfList depth ts → depth ≤ e.1
  | [], _, _, h => nomatch h
  | t :: ts, depth, e, h => by
    obtain h | h := List.mem_append.mp h
    · exact le_of_mem_entries h
    · exact le_of_mem_entriesOfList h

end

/-- The depths alone determine the tree. -/
theorem ofEntries?_entries (t : HeaderTree) : ofEntries? (t.entries depth) = some t := by
  have h : Closed depth [] := by simp [Closed]
  rw [ofEntries?, foldr_attach_entries t h]

/-- The header of an entry behind the indentation of its depth. -/
def lineOfEntry (entry : Nat × Text) : Text := Plan.indent entry.1 ++ entry.2

theorem entryOfLine_lineOfEntry {entry : Nat × Text} (h : 0 < entry.1) :
    entryOfLine (lineOfEntry entry) = entry := by
  obtain ⟨depth, header⟩ := entry
  have hindent : (Plan.indent depth : Text).points = List.replicate (2 * depth) (.char ' ') ++
      [.char '-', .char '>', .char ' '] := by
    simp [Plan.indent, Nat.pos_iff_ne_zero.mp h, Text.ofString, Text.ofChars, toList_pushn]
  have hpoints : (lineOfEntry (depth, header)).points =
      List.replicate (2 * depth) (.char ' ') ++ [.char '-', .char '>', .char ' '] ++
        header.points :=
    congrArg (· ++ header.points) hindent
  have hblanks : ((lineOfEntry (depth, header)).points.takeWhile (· = .char ' ')).length =
      2 * depth := by
    rw [hpoints, List.append_assoc, List.takeWhile_append_of_pos (by simp)]
    simp
  rw [entryOfLine, hblanks, hpoints]
  have hdepth : 2 * depth / 2 = depth := by omega
  have hdrop : 2 * depth + 3 = (List.replicate (2 * depth) (CodePoint.char ' ') ++
      [CodePoint.char '-', CodePoint.char '>', CodePoint.char ' ']).length := by simp
  rw [hdepth, hdrop, List.drop_left]

theorem map_entryOfLine {entries : List (Nat × Text)} (h : ∀ e ∈ entries, 0 < e.1) :
    (entries.map lineOfEntry).map entryOfLine = entries := by
  have hentry : ∀ e ∈ entries, (entryOfLine ∘ lineOfEntry) e = id e :=
    fun e he => entryOfLine_lineOfEntry (h e he)
  rw [List.map_map, List.map_congr_left hentry, List.map_id]

end HeaderTree

namespace Plan

theorem oneLine_indent (depth : Nat) : OneLine (indent depth) := by
  unfold indent
  split
  · decide
  · exact over_append.mpr ⟨Over.pushn (by decide) (by decide) _, by decide⟩

mutual

/-- The headers of the nodes of a plan. -/
def headerTree (hints : Plan → Option HintRecord) (p : Plan) : HeaderTree :=
  .node (p.header hints) <|
    match p with
    | scan .. => []
    | filter _ input _ | project _ input _ => [input.headerTree hints]
    | join _ _ left right _ => [left.headerTree hints, right.headerTree hints]
    | foreign _ _ children => headerTrees hints children

def headerTrees (hints : Plan → Option HintRecord) : List Plan → List HeaderTree
  | [] => []
  | p :: ps => p.headerTree hints :: headerTrees hints ps

end

@[simp] theorem headerTrees_eq (hints : Plan → Option HintRecord) (ps : List Plan) :
    headerTrees hints ps = ps.map (headerTree hints) := by
  induction ps with
  | nil => rfl
  | cons p ps ih => rw [headerTrees, ih, List.map_cons]

theorem headerTree_eq (hints : Plan → Option HintRecord) (p : Plan) :
    p.headerTree hints = .node (p.header hints) (p.children.map (headerTree hints)) := by
  cases p <;> rw [headerTree] <;> simp [children]

theorem lines_eq_entries (hints : Plan → Option HintRecord) (p : Plan) (depth : Nat) :
    p.lines hints depth = ((p.headerTree hints).entries depth).map HeaderTree.lineOfEntry := by
  induction p using induction_children generalizing depth with
  | h p ih =>
    rw [lines_eq, headerTree_eq, HeaderTree.entries, List.map_cons, HeaderTree.entriesOfList_eq,
      List.flatMap_map, List.map_flatMap, List.flatMap_congr fun c hc => ih c hc (depth + 1)]
    rfl

theorem length_lines (hints : Plan → Option HintRecord) (p : Plan) (depth : Nat) :
    (p.lines hints depth).length = p.size := by
  induction p using induction_children generalizing depth with
  | h p ih =>
    rw [lines_eq, size_eq, List.length_cons, List.length_flatMap,
      List.map_congr_left fun c hc => ih c hc (depth + 1)]

theorem exists_node_of_mem_lines {hints : Plan → Option HintRecord} {p : Plan} {depth : Nat}
    {line : Text} (h : line ∈ p.lines hints depth) :
    ∃ n ∈ p.nodes, ∃ d, line = HeaderTree.lineOfEntry (d, n.header hints) := by
  induction p using induction_children generalizing depth with
  | h p ih =>
    rw [lines_eq] at h
    obtain rfl | h := List.mem_cons.mp h
    · exact ⟨p, p.self_mem_nodes, depth, rfl⟩
    · obtain ⟨c, hc, hline⟩ := List.mem_flatMap.mp h
      obtain ⟨n, hn, hline⟩ := ih c hc hline
      exact ⟨n, nodes_subset (mem_nodes_of_mem_children hc) hn, hline⟩

theorem oneLine_of_mem_lines {hints : Plan → Option HintRecord} {p : Plan} {depth : Nat}
    {line : Text} (hp : ∀ t ∈ p.texts, t.OneLine) (h : line ∈ p.lines hints depth) :
    line.OneLine := by
  obtain ⟨n, hn, d, rfl⟩ := exists_node_of_mem_lines h
  have hheader : (n.header hints).OneLine :=
    oneLine_header hints fun t ht => hp t (List.mem_flatMap.mpr ⟨n, hn, ht⟩)
  simp only [HeaderTree.lineOfEntry, Text.oneLine_append, Text.oneLine_ofString, hheader, and_true]
  exact oneLine_indent d

/-- The lines of an explained plan are those of its nodes. -/
theorem split_explain {hints : Plan → Option HintRecord} {p : Plan} {t : Text}
    (hp : ∀ t ∈ p.texts, t.OneLine) (h : p.explain? hints = some t) :
    t.split '\n' = p.lines hints 0 := by
  obtain ⟨lines, hlines, rfl⟩ := Option.map_eq_some_iff.mp h
  obtain ⟨-, hlines⟩ := Option.ite_none_right_eq_some.mp hlines
  obtain rfl := Option.some.inj hlines
  have hne : p.lines hints 0 ≠ [] := by
    rw [lines_eq]
    exact List.cons_ne_nil _ _
  exact Text.split_join hne fun line => oneLine_of_mem_lines hp

/-- The tree of headers is read back from the explained plan. -/
theorem ofText?_explain {hints : Plan → Option HintRecord} {p : Plan} {t : Text}
    (hp : ∀ t ∈ p.texts, t.OneLine) (h : p.explain? hints = some t) :
    HeaderTree.ofText? t = some (p.headerTree hints) := by
  let below := HeaderTree.entriesOfList 1 (p.children.map (headerTree hints))
  have hbelow : (below.map HeaderTree.lineOfEntry).map HeaderTree.entryOfLine = below :=
     HeaderTree.map_entryOfLine fun e he => HeaderTree.le_of_mem_entriesOfList he
  have hlines : p.lines hints 0 = p.header hints :: below.map HeaderTree.lineOfEntry := by
    rw [lines_eq_entries, headerTree_eq, HeaderTree.entries, List.map_cons]
    rfl
  have hentries : (p.headerTree hints).entries 0 = (0, p.header hints) :: below := by
    rw [headerTree_eq, HeaderTree.entries]
  rw [HeaderTree.ofText?, split_explain hp h, hlines]
  dsimp only
  rw [hbelow, ← hentries, HeaderTree.ofEntries?_entries]

/-- An explained plan has a line for each node, the tree of headers can be read back from it, and
so plans that are explained by the same text have the same tree of headers. -/
theorem explain_determines_headers {hints hints' : Plan → Option HintRecord} {p q : Plan} {t : Text}
    (hp : ∀ t ∈ p.texts, t.OneLine) (hq : ∀ t ∈ q.texts, t.OneLine)
    (h : p.explain? hints = some t) :
    (t.split '\n').length = p.size ∧
      HeaderTree.ofText? t = some (p.headerTree hints) ∧
      (q.explain? hints' = some t → p.headerTree hints = q.headerTree hints') := by
  refine ⟨?_, ofText?_explain hp h, fun h' => ?_⟩
  · rw [split_explain hp h, length_lines]
  · exact Option.some.inj ((ofText?_explain hp h).symm.trans (ofText?_explain hq h'))

end Plan

/-- A node of a foreign kind over a filter and over a node that has no input, where names and
strings look like an indentation. -/
def arrowPlan (first : Nat) : Plan :=
  .foreign (first + 3)
    { name := "  -> Merge", schema := List.flatten, rebuild := fun _ => .ok () }
    [.filter (first + 1) (.scan first "a -> b" [⟨"  c", .varchar, true⟩])
      (.bin .eq (.col ⟨0, .varchar, true, some "  c"⟩) (.lit ⟨first, .str "-> d", .varchar⟩)),
    .foreign (first + 2)
      { name := "    -> Rows", schema := fun _ => [], rebuild := fun _ => .ok () } []]

theorem arrowPlan_headers :
    (∀ t ∈ (arrowPlan 0).texts, t.OneLine) ∧ (∀ t ∈ (arrowPlan 7).texts, t.OneLine) ∧
      ∃ t, (arrowPlan 0).explain? (fun _ => none) = some t ∧
        (arrowPlan 7).explain? (fun _ => none) = some t ∧
        (arrowPlan 0).headerTree (fun _ => none) = (arrowPlan 7).headerTree (fun _ => none) := by
  have htexts : ∀ t ∈ (arrowPlan 0).texts, t.OneLine := by decide
  have htexts' : ∀ t ∈ (arrowPlan 7).texts, t.OneLine := by decide
  have hleft : (arrowPlan 0).explain? (fun _ => none) =
      some (Text.join "\n" ((arrowPlan 0).lines (fun _ => none) 0)) := rfl
  have hright : (arrowPlan 7).explain? (fun _ => none) =
      some (Text.join "\n" ((arrowPlan 0).lines (fun _ => none) 0)) := rfl
  have hsame := (Plan.explain_determines_headers htexts htexts' hleft).2.2 hright
  exact ⟨htexts, htexts', _, hleft, hright, hsame⟩

end Semijoin
