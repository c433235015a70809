import SqlFootprint.Proofs.Filter.PieceLaws

/-! # The pieces of trees

The pieces of a tree lay out its text, in canonical form (`Sql.Expr.lays`) and in compact form
(`Sql.Expr.lays_compact`). Both are shown by one walk over the trees, with one case for each form of
a tree: its text is put together as it is written. -/

namespace SqlFootprint

open SqlFootprint.Filter Sql

/-! ## The pieces of a tree lay out its text -/

mutual

/-- The pieces of an expression lay out its text. -/
theorem Sql.Expr.lays (scopes : List Aliases) :
    (e : Expr) → Lays true e.written (e.pieces scopes)
  | .name id => .lit _
  | .dotted parts => .dotted scopes parts
  | .wildcard => .lit _
  | .tableWildcard parts => .star scopes parts
  | .literal value => .lit _
  | .introduced charset value => (Lays.lit _).gap endsGap_blank (value.lays scopes)
  | .binary left op right =>
    (((left.lays scopes).text " ").text op.written).gap endsGap_blank (right.lays scopes)
  | .unary op arg => .lead (by cases op <;> decide) (arg.lays scopes)
  | .nested inner => (Lays.lead endsGap_paren (inner.lays scopes)).text ")"
  | .isTest arg negated truth => (((arg.lays scopes).text _).text _).text _
  | .distinctFrom left negated right =>
    (((left.lays scopes).text _).text _).gap (by decide) (right.lays scopes)
  | .inList arg negated items =>
    ((((arg.lays scopes).text _).text _).text _).append (.paren (exprsLays scopes items))
  | .inQuery arg negated body =>
    ((((arg.lays scopes).text _).text _).gap (by decide) (body.lays scopes)).text _
  | .between arg negated low high =>
    ((((arg.lays scopes).text _).text _).gap (by decide) (low.lays scopes)).gap (by decide)
      (high.lays scopes)
  | .like arg negated op any pattern escape =>
    (LaysOpen.gap ((((arg.lays scopes).text " ").text (notWord negated)).text op.written)
      endsGap_blank |>.open_append (.word (by cases any <;> decide)) |>.append
        (pattern.lays scopes)).text _
  | .regexp arg negated rlike pattern =>
    (((arg.lays scopes).text " ").text (notWord negated)).gap (by cases rlike <;> decide)
      (pattern.lays scopes)
  | .quantified left op quantifier right => by
    have front := ((((left.lays scopes).text " ").text op.written).text " ").text quantifier.written
    have inner := right.lays scopes
    cases right
    -- a query has its own parentheses and gets no others
    case subquery query => exact front.append (Lays.behind inner (by decide))
    all_goals exact front.append ((Lays.lead endsGap_paren inner).text ")")
  | .memberOf value array =>
    ((value.lays scopes).gap (by decide) (array.lays scopes)).text ")"
  | .atTimeZone time zone => (time.lays scopes).gap (by decide) (zone.lays scopes)
  | .choice none arms none =>
    ((((Lays.lit "CASE").append .nil).append (armsLays scopes arms)).append .nil).text " END"
  | .choice none arms (some e) =>
    ((((Lays.lit "CASE").append .nil).append (armsLays scopes arms)).append
      (.lead (by decide) (e.lays scopes))).text " END"
  | .choice (some operand) arms none =>
    ((((Lays.lit "CASE").append (.lead endsGap_blank (operand.lays scopes))).append
      (armsLays scopes arms)).append .nil).text " END"
  | .choice (some operand) arms (some e) =>
    ((((Lays.lit "CASE").append (.lead endsGap_blank (operand.lays scopes))).append
      (armsLays scopes arms)).append (.lead (by decide) (e.lays scopes))).text " END"
  | .cast word arg type =>
    ((((Lays.lit word).gap endsGap_paren (arg.lays scopes)).text " AS ").text type.written).text ")"
  | .doubleColon arg type => ((arg.lays scopes).text "::").text type.written
  | .convert arg type charset => ((Lays.lead (by decide) (arg.lays scopes)).text _).text ")"
  | .extract unit arg =>
    (((Lays.lit "EXTRACT(").text unit).gap (by decide) (arg.lays scopes)).text ")"
  | .rounded up arg scale =>
    ((Lays.lead (by cases up <;> decide) (arg.lays scopes)).text scale).text ")"
  | .position needle haystack =>
    ((Lays.lead (by decide) (needle.lays scopes)).gap (by decide) (haystack.lays scopes)).text ")"
  | .substring short commas arg start length => by
    have front : Lays true ((if short then "SUBSTR(" else "SUBSTRING(") ++ arg.written)
        (lit (if short then "SUBSTR(" else "SUBSTRING(") ++ arg.pieces scopes) :=
      .lead (by cases short <;> decide) (arg.lays scopes)
    have first {t : String} {ps : List Piece} (h : Lays true t ps) :
        Lays false ((if commas then ", " else " FROM ") ++ t)
          (lit (if commas then ", " else " FROM ") ++ ps) :=
      .lead (by cases commas <;> decide) h
    have count {t : String} {ps : List Piece} (h : Lays true t ps) :
        Lays false ((if commas then ", " else " FOR ") ++ t)
          (lit (if commas then ", " else " FOR ") ++ ps) :=
      .lead (by cases commas <;> decide) h
    cases start with
    | none =>
      cases length with
      | none => exact ((front.append .nil).append .nil).text ")"
      | some e => exact ((front.append .nil).append (count (e.lays scopes))).text ")"
    | some start =>
      have front := front.append (first (start.lays scopes))
      cases length with
      | none => exact (front.append .nil).text ")"
      | some e => exact (front.append (count (e.lays scopes))).text ")"
  | .overlay arg new start length => by
    have front : Lays true
        ("OVERLAY(" ++ arg.written ++ " PLACING " ++ new.written ++ " FROM " ++ start.written)
        (lit "OVERLAY(" ++ arg.pieces scopes ++ lit " PLACING " ++ new.pieces scopes ++
          lit " FROM " ++ start.pieces scopes) :=
      ((Lays.lead (by decide) (arg.lays scopes)).gap (by decide) (new.lays scopes)).gap (by decide)
        (start.lays scopes)
    cases length with
    | none => exact (front.append .nil).text ")"
    | some e => exact (front.append (.lead (by decide) (e.lays scopes))).text ")"
  | .trimmed side arg what => by
    -- behind the parenthesis and the side a qualifier may begin, whatever is missing of the rest
    have front : LaysOpen true
        ("TRIM(" ++ (match side with | none => "" | some s => s.written))
        (lit "TRIM(" ++ lit (match side with | none => "" | some s => s.written)) :=
      (LaysOpen.lead (by decide)).open_append (.word (by rcases side with _ | _ | _ <;> decide))
    cases what with
    | none => exact ((front.open_append .nil).append (arg.lays scopes)).text ")"
    | some e =>
      have what := LaysOpen.gap (e.lays scopes) (s := " FROM ") (by decide)
      exact ((front.open_append what).append (arg.lays scopes)).text ")"
  | .collate arg collation => ((arg.lays scopes).text " COLLATE ").text _
  | .existsRow negated query =>
    ((Lays.lit (notWord negated)).gap (by decide) (query.lays scopes)).text ")"
  | .subquery query => (Lays.lead endsGap_paren (query.lays scopes)).text ")"
  | .tuple items => .paren (exprsLays scopes items)
  | .call function => function.lays scopes
  | .fullText columns text mode =>
    (((((Lays.lit "MATCH ").append (.paren (Lays.dottedNames scopes columns))).text
      " AGAINST (").text text.written).text (spaced mode)).text ")"
  | .interval value unit => ((Lays.lead (by decide) (value.lays scopes)).text " ").text unit
  | .typed type value => .lit _
  | .access root parts => (root.lays scopes).append (partsLays scopes parts)
termination_by structural e => e

/-- The pieces of expressions lay out their texts. -/
theorem exprsLays (scopes : List Aliases) :
    (es : List Expr) → List.Forall₂ (Lays true) (writtenExprs es) (exprsPieces scopes es)
  | [] => .nil
  | e :: es => .cons (e.lays scopes) (exprsLays scopes es)
termination_by structural es => es

/-- The pieces of the parts of a value lay out their text behind every text. -/
theorem partsLays (scopes : List Aliases) :
    (es : List Expr) → Lays false (writtenParts es) (partsPieces scopes es)
  | [] => .nil
  | e :: es => ((Lays.lit ".").append (e.lays scopes).closed).append (partsLays scopes es)
termination_by structural es => es

/-- The pieces of the cases of a choice lay out their text behind every text. -/
theorem armsLays (scopes : List Aliases) :
    (arms : List CaseArm) → Lays false (writtenArms arms) (armsPieces scopes arms)
  | [] => .nil
  | arm :: arms => (arm.lays scopes).append (armsLays scopes arms)
termination_by structural arms => arms

/-- The pieces of a case lay out its text behind every text. -/
theorem Sql.CaseArm.lays (scopes : List Aliases) :
    (arm : CaseArm) → Lays false arm.written (arm.pieces scopes)
  | ⟨condition, result⟩ =>
    (Lays.lead (by decide) (condition.lays scopes)).gap (by decide) (result.lays scopes)
termination_by structural arm => arm

/-- The pieces of an argument lay out its text. -/
theorem Sql.Arg.lays (scopes : List Aliases) :
    (arg : Arg) → Lays true arg.written (arg.pieces scopes)
  | .value label arg => (arg.lays scopes).behindLabel label
  | .wildcard label [] => (Lays.lit label).text "*"
  | .wildcard label (part :: parts) => by
    have star := (Lays.star scopes (part :: parts)).behindLabel label
    rwa [← String.append_assoc] at star
termination_by structural arg => arg

/-- The pieces of arguments lay out their texts. -/
theorem argsLays (scopes : List Aliases) :
    (args : List Arg) → List.Forall₂ (Lays true) (writtenArgs args) (argsPieces scopes args)
  | [] => .nil
  | arg :: args => .cons (arg.lays scopes) (argsLays scopes args)
termination_by structural args => args

/-- The pieces of a function call lay out its text. -/
theorem Sql.Call.lays (scopes : List Aliases) :
    (call : Call) → Lays true call.written (call.pieces scopes)
  | ⟨name, parens, duplicates, args, order, limit, separator, within, nulls, window⟩ => by
    have front : Lays false
        ("(" ++ duplicatesWord duplicates ++ commaSep (writtenArgs args) ++
          clauseList " ORDER BY " (writtenKeys order))
        (lit "(" ++ lit (duplicatesWord duplicates) ++ commaPieces (argsPieces scopes args) ++
          clausePieces " ORDER BY " (keysPieces scopes order)) := by
      have word : LaysOpen true (duplicatesWord duplicates) (lit (duplicatesWord duplicates)) :=
        .word (by rcases duplicates with _ | _ | _ <;> decide)
      refine Lays.append ?_ (.clause (by decide) (keysLays scopes order))
      exact ((LaysOpen.lead endsGap_paren).open_append word).append (.comma (argsLays scopes args))
    have group : Lays false
        (if within.isEmpty then ""
          else " WITHIN GROUP (ORDER BY " ++ commaSep (writtenKeys within) ++ ")")
        (if within.isEmpty then []
          else lit " WITHIN GROUP (ORDER BY " ++ commaPieces (keysPieces scopes within) ++
            lit ")") :=
      .ite .nil ((Lays.lead (by decide) (.comma (keysLays scopes within))).text ")")
    have all {t : String} {ps : List Piece} (h : Lays false t ps) :
        Lays true
          (ObjectName.written name ++ (if parens then t else "") ++
            (if within.isEmpty then ""
              else " WITHIN GROUP (ORDER BY " ++ commaSep (writtenKeys within) ++ ")") ++
            spaced nulls ++ overWord window ++ window.written)
          (lit (ObjectName.written name) ++ (if parens then ps else []) ++
            (if within.isEmpty then []
              else lit " WITHIN GROUP (ORDER BY " ++ commaPieces (keysPieces scopes within) ++
                lit ")") ++
            lit (spaced nulls) ++ lit (overWord window) ++ window.pieces scopes) :=
      (((((Lays.lit _).append (.ite h .nil)).append group).text _).text _).append
        (window.lays scopes)
    cases limit with
    | none => exact all (((front.append .nil).text _).text ")")
    | some e => exact all (((front.append (.lead (by decide) (e.lays scopes))).text _).text ")")
termination_by structural call => call

/-- The pieces of a window lay out its text. -/
theorem Sql.Window.lays (scopes : List Aliases) :
    (window : Window) → Lays false window.written (window.pieces scopes)
  | .none => .nil
  | .named name => .lit _
  | .inline base partition order frame counts => by
    have name : List.Forall₂ (Lays true)
        (match base with | none => [] | some name => [name.written])
        (match base with | none => [] | some name => [lit name.written]) := by
      cases base with
      | none => exact .nil
      | some name => exact .cons (.lit _) .nil
    have rows : List.Forall₂ (Lays true)
        (match frame with | none => [] | some f => [f.written (writtenExprs counts)])
        (match frame with
          | none => []
          | some f => [framePieces f (exprsPieces scopes counts)]) := by
      cases frame with
      | none => exact .nil
      | some f => exact .cons (.frame f (exprsLays scopes counts)) .nil
    have groups := Lays.one (p := partition.isEmpty)
      (.lead (s := "PARTITION BY ") (by decide) (.comma (exprsLays scopes partition)))
    have keys := Lays.one (p := order.isEmpty)
      (.lead (s := "ORDER BY ") (by decide) (.comma (keysLays scopes order)))
    exact (Lays.lead endsGap_paren (.join endsGap_blank
      (List.rel_append (List.rel_append (List.rel_append name groups) keys) rows))).text ")"
termination_by structural window => window

/-- The pieces of a key of an order lay out its text. -/
theorem Sql.OrderKey.lays (scopes : List Aliases) :
    (key : OrderKey) → Lays true key.written (key.pieces scopes)
  | ⟨key, _, _⟩ => (key.lays scopes).text _
termination_by structural key => key

/-- The pieces of the keys of an order lay out their texts. -/
theorem keysLays (scopes : List Aliases) :
    (keys : List OrderKey) → List.Forall₂ (Lays true) (writtenKeys keys) (keysPieces scopes keys)
  | [] => .nil
  | key :: keys => .cons (key.lays scopes) (keysLays scopes keys)
termination_by structural keys => keys

/-- The pieces of an item of a projection lay out its text. -/
theorem Sql.SelectItem.lays (scopes : List Aliases) :
    (item : SelectItem) → Lays true item.written (item.pieces scopes)
  | .value expr none => expr.lays scopes
  | .value expr (some name) => ((expr.lays scopes).text " AS ").text name.written
  | .wildcard [] => .lit _
  | .wildcard (part :: parts) => .star scopes (part :: parts)
termination_by structural item => item

/-- The pieces of a projection lay out the texts of its items. -/
theorem itemsLays (scopes : List Aliases) :
    (items : List SelectItem) →
      List.Forall₂ (Lays true) (writtenItems items) (itemsPieces scopes items)
  | [] => .nil
  | item :: items => .cons (item.lays scopes) (itemsLays scopes items)
termination_by structural items => items

/-- The pieces of a source lay out its text. -/
theorem Sql.Source.lays (scopes : List Aliases) :
    (source : Source) → Lays true source.written (source.pieces scopes)
  | .table name partitions asName hints => .lit _
  | .tableCall name args asName hints =>
    (((Lays.lit _).append (.paren (argsLays scopes args))).text _).text _
  | .derived lateral query asName =>
    ((Lays.lead (by cases lateral <;> decide) (query.lays scopes)).text ")").text _
  | .nested tree asName => ((Lays.lead endsGap_paren (tree.lays scopes)).text ")").text _
  | .document value path columns asName =>
    ((((((Lays.lead (by decide) (value.lays scopes)).text ", ").text path.written).text
      " COLUMNS").text _).text ")").text _
  | .routine name args asName =>
    (((Lays.lit "LATERAL ").text _).append (.paren (argsLays scopes args))).text _
  | .ofValue value asName => ((Lays.lead (by decide) (value.lays scopes)).text ")").text _
termination_by structural source => source

/-- The pieces of what stands behind the target of a join lay out its text behind every text. -/
theorem Sql.JoinConstraint.lays (scopes : List Aliases) :
    (constraint : JoinConstraint) → Lays false constraint.written (constraint.pieces scopes)
  | .on condition => .lead (by decide) (condition.lays scopes)
  | .using columns => (Lays.lit " USING").append (.paren (Lays.dottedNames scopes columns))
  | .natural => .nil
  | .none => .nil
termination_by structural constraint => constraint

/-- The pieces of a step of a join tree lay out its text behind every text. -/
theorem Sql.Join.lays (scopes : List Aliases) :
    (join : Join) → Lays false join.written (join.pieces scopes)
  | ⟨kind, target, constraint⟩ =>
    ((((Lays.lit " ").text _).text kind.written).gap endsGap_blank (target.lays scopes)).append
      (constraint.lays scopes)
termination_by structural join => join

/-- The pieces of the joins of a tree lay out their text behind every text. -/
theorem joinsLays (scopes : List Aliases) :
    (joins : List Join) → Lays false (writtenJoins joins) (joinsPieces scopes joins)
  | [] => .nil
  | join :: joins => (join.lays scopes).append (joinsLays scopes joins)
termination_by structural joins => joins

/-- The pieces of a join tree lay out its text. -/
theorem Sql.JoinTree.lays (scopes : List Aliases) :
    (tree : JoinTree) → Lays true tree.written (tree.pieces scopes)
  | ⟨base, joins⟩ => (base.lays scopes).append (joinsLays scopes joins)
termination_by structural tree => tree

/-- The pieces of join trees lay out their texts. -/
theorem treesLays (scopes : List Aliases) :
    (trees : List JoinTree) →
      List.Forall₂ (Lays true) (writtenTrees trees) (treesPieces scopes trees)
  | [] => .nil
  | tree :: trees => .cons (tree.lays scopes) (treesLays scopes trees)
termination_by structural trees => trees

/-- The pieces of the definitions of windows lay out their texts behind every text. -/
theorem windowsLays (scopes : List Aliases) :
    (windows : List Window) →
      List.Forall₂ (Lays false) (writtenWindows windows) (windowsPieces scopes windows)
  | [] => .nil
  | window :: windows => .cons (window.lays scopes) (windowsLays scopes windows)
termination_by structural windows => windows

/-- The pieces of a block lay out its text. -/
theorem Sql.Select.lays (scopes : List Aliases) :
    (block : Select) → Lays true block.written (block.pieces scopes)
  | ⟨distinct, top, items, into, sources, selection, groupAll, groupKeys, groupWords, having,
      windowNames, windows⟩ => by
    -- the sources give second names to all parts of the block
    let own := leafAliases (sourceLeaves sources) :: scopes
    have front : Lays true
        ("SELECT" ++ (if distinct then " DISTINCT" else "") ++
          (match top with | none => "" | some text => " " ++ text) ++ " " ++
          commaSep (writtenItems items) ++
          (match into with | none => "" | some text => " INTO " ++ text) ++
          clauseList " FROM " (writtenTrees sources))
        (lit "SELECT" ++ lit (if distinct then " DISTINCT" else "") ++
          lit (match top with | none => "" | some text => " " ++ text) ++ lit " " ++
          commaPieces (itemsPieces own items) ++
          lit (match into with | none => "" | some text => " INTO " ++ text) ++
          clausePieces " FROM " (treesPieces own sources)) :=
      (((((Lays.lit _).text _).text _).gap endsGap_blank (.comma (itemsLays own items))).text
        _).append (.clause (by decide) (treesLays own sources))
    have group : Lays false
        (if groupAll then " GROUP BY ALL" else clauseList " GROUP BY " (writtenExprs groupKeys))
        (if groupAll then lit " GROUP BY ALL"
          else clausePieces " GROUP BY " (exprsPieces own groupKeys)) :=
      .ite (.lit _) (.clause (by decide) (exprsLays own groupKeys))
    have named := Lays.zipWith (windowsLays own windows) windowNames
    have all {t u : String} {ps qs : List Piece} (h : Lays false t ps) (h' : Lays false u qs) :=
      ((((front.append h).append group).text (String.join (groupWords.map spaced))).append
        h').append (.clause (s := " WINDOW ") (by decide) named)
    cases selection with
    | none =>
      cases having with
      | none => exact all .nil .nil
      | some e => exact all .nil (.lead (by decide) (e.lays own))
    | some condition =>
      have rows : Lays false (" WHERE " ++ condition.written)
          (lit " WHERE " ++ condition.pieces own) := .lead (by decide) (condition.lays own)
      cases having with
      | none => exact all rows .nil
      | some e => exact all rows (.lead (by decide) (e.lays own))
termination_by structural block => block

/-- The pieces of the body of a query lay out its text. -/
theorem Sql.QueryBody.lays (scopes : List Aliases) :
    (body : QueryBody) → Lays true body.written (body.pieces scopes)
  | .select block => block.lays scopes
  | .values rowWord rows => by
    have row {t : String} {ps : List Piece} (h : Lays true t ps) :
        Lays true (if rowWord then "ROW" ++ t else t)
          (if rowWord then lit "ROW" ++ closed ps else ps) :=
      .ite ((Lays.lit "ROW").append h.closed) h
    exact .lead (by decide) (.comma (List.rel_map (fun _ _ h => row h) (exprsLays scopes rows)))
  | .nested query => (Lays.lead endsGap_paren (query.lays scopes)).text ")"
  | .combined left op quantifier right =>
    ((((left.lays scopes).text " ").text op.written).text _).gap endsGap_blank (right.lays scopes)
termination_by structural body => body

/-- The pieces of a query with a name lay out its text. -/
theorem Sql.CommonTable.lays (scopes : List Aliases) :
    (table : CommonTable) → Lays true table.written (table.pieces scopes)
  | ⟨asName, query, origin⟩ =>
    (((Lays.lit asName.written).gap (by decide) (query.lays scopes)).text ")").text _
termination_by structural table => table

/-- The pieces of queries with names lay out their texts. -/
theorem tablesLays (scopes : List Aliases) :
    (tables : List CommonTable) →
      List.Forall₂ (Lays true) (writtenTables tables) (tablesPieces scopes tables)
  | [] => .nil
  | table :: tables => .cons (table.lays scopes) (tablesLays scopes tables)
termination_by structural tables => tables

/-- The pieces of a query lay out its text. -/
theorem Sql.Query.lays (scopes : List Aliases) :
    (query : Query) → Lays true query.written (query.pieces scopes)
  | ⟨recursive, tables, body, order, limit, offset, limitForm, locks⟩ => by
    let inner := bodyScopes scopes body
    have named : LaysOpen true
        (if tables.isEmpty then ""
          else (if recursive then "WITH RECURSIVE " else "WITH ") ++
            commaSep (writtenTables tables) ++ " ")
        (if tables.isEmpty then []
          else lit (if recursive then "WITH RECURSIVE " else "WITH ") ++
            commaPieces (tablesPieces scopes tables) ++ lit " ") :=
      .ite .nil (.gap (.lead (by cases recursive <;> decide) (.comma (tablesLays scopes tables)))
        endsGap_blank)
    have front := (named.append (body.lays scopes)).append
      (.clause (s := " ORDER BY ") (by decide) (keysLays inner order))
    have all {l o : Option String} {l' o' : Option (List Piece)}
        (hl : Option.Rel (Lays true) l l') (ho : Option.Rel (Lays true) o o') :=
      (front.append (.limit limitForm hl ho)).text (String.join (locks.map spaced))
    cases limit with
    | none =>
      cases offset with
      | none => exact all .none .none
      | some start => exact all .none (.some (start.lays inner))
    | some count =>
      cases offset with
      | none => exact all (.some (count.lays inner)) .none
      | some start => exact all (.some (count.lays inner)) (.some (start.lays inner))
termination_by structural query => query

end

end SqlFootprint

namespace SqlFootprint.Filter

/-! ## Compact text -/

section

variable {ε α β : Type} {P : α → Prop} {Q : β → Prop} {r : Except ε α} {f : α → Except ε β}

/-- What a computation gives has a property, if it gives anything. -/
def Gives (P : α → Prop) (r : Except ε α) : Prop := ∀ a, r = .ok a → P a

theorem Gives.ok {a : α} (h : P a) : Gives P (.ok a : Except ε α) := fun _ eq =>
  Except.ok.inj eq ▸ h

theorem Gives.error (e : ε) : Gives P (.error e : Except ε α) := fun _ eq => by cases eq

/-- One computation after the other. -/
theorem Gives.bind (h : Gives P r) (hf : ∀ a, P a → Gives Q (f a)) : Gives Q (r >>= f) := by
  cases r with
  | error e => exact .error e
  | ok a => exact hf a (h a rfl)

end

end SqlFootprint.Filter

namespace SqlFootprint

open SqlFootprint.Filter Sql

/-- An operator in compact form ends with a gap. -/
theorem endsGap_compact (op : BinaryOp) : endsGap op.compact = true := by cases op <;> decide

mutual

/-- The pieces of the compact text of an expression lay it out. -/
theorem Sql.Expr.lays_compact (scopes : List Aliases) (e : Expr) :
    Gives (Lays true · (e.compactPieces scopes)) e.compact := by
  -- the forms without a compact text of their own are written in canonical form
  have canonical := e.lays scopes
  cases e with
  | literal value => exact .ok (.lit _)
  | introduced charset value =>
    exact (value.lays_compact scopes).bind fun _ h => .ok ((Lays.lit _).append h.closed)
  | binary left op right =>
    exact (left.lays_compact scopes).bind fun _ hl => (right.lays_compact scopes).bind fun _ hr =>
      .ok (hl.gap (endsGap_compact op) hr)
  | unary op arg =>
    exact (arg.lays_compact scopes).bind fun _ h => .ok (.lead (by cases op <;> decide) h)
  | nested inner =>
    exact (inner.lays_compact scopes).bind fun _ h => .ok ((Lays.lead endsGap_paren h).text ")")
  | isTest arg negated truth =>
    have arg := arg.lays_compact scopes
    cases truth with
    | null => exact arg.bind fun _ h => .ok (((h.text _).text _).text _)
    | unknown => cases negated <;> exact .ok canonical
    | true =>
      cases negated with
      | false => exact arg.bind fun _ h => .ok (h.text _)
      | true => exact .ok canonical
    | false =>
      cases negated with
      | false => exact arg.bind fun _ h => .ok (h.text _)
      | true => exact .ok canonical
  | inList arg negated items =>
    exact (arg.lays_compact scopes).bind fun _ ha =>
      (compactItems_lays scopes items).bind fun _ hi =>
        .ok ((((ha.text _).text _).gap (by decide) (.join (by decide) hi)).text ")")
  | inQuery arg negated body =>
    exact (arg.lays_compact scopes).bind fun _ h =>
      .ok ((((h.text _).text _).gap (by decide) (body.lays scopes)).text ")")
  | between arg negated low high =>
    exact (arg.lays_compact scopes).bind fun _ ha => (low.lays_compact scopes).bind fun _ hl =>
      (high.lays_compact scopes).bind fun _ hh =>
        .ok ((((ha.text _).text _).gap (by decide) hl).gap (by decide) hh)
  | like arg negated op any pattern escape =>
    have arg := arg.lays_compact scopes
    have pattern := pattern.lays_compact scopes
    cases op with
    | ilike => exact .ok canonical
    | similarTo => exact .ok canonical
    | like =>
      cases escape with
      | some c => exact .ok canonical
      | none =>
        exact arg.bind fun _ ha => pattern.bind fun _ hp =>
          .ok (((ha.text _).text _).gap (by decide) hp)
  | wildcard => exact .error _
  | tableWildcard parts => exact .error _
  | _ => exact .ok canonical
termination_by structural e

/-- The pieces of the compact texts of expressions lay them out. -/
theorem compactItems_lays (scopes : List Aliases) :
    (es : List Expr) →
      Gives (List.Forall₂ (Lays true) · (compactItemsPieces scopes es)) (compactItems es)
  | [] => .ok .nil
  | e :: es =>
    (e.lays_compact scopes).bind fun _ h => (compactItems_lays scopes es).bind fun _ hs =>
      .ok (.cons h hs)
termination_by structural es => es

end

end SqlFootprint
