import SqlFootprint.Proofs.Footprint.Grouping

/-! # Columns of join constraints

The columns of a statement are those that a name refers to anywhere in its tree, and those that are
given a value (`mem_columns_footprint`). A list of columns that two sources are joined on is no
expression, and its names refer to nothing. So all columns that a constraint names are listed
exactly if those that it only lists are mentioned elsewhere (`harvests_iff`). -/

namespace SqlFootprint

open Sql

/-! ## Parts of a tree -/

/-- A part of the tree of a statement. -/
inductive Node where
  /-- An expression. -/
  | expr (inner : Expr)
  /-- A case of a choice. -/
  | arm (inner : CaseArm)
  /-- An argument. -/
  | arg (inner : Arg)
  /-- A function call. -/
  | call (inner : Call)
  /-- A window. -/
  | window (inner : Window)
  /-- A key of an order. -/
  | key (inner : OrderKey)
  /-- An item of a projection. -/
  | item (inner : SelectItem)
  /-- A source. -/
  | source (inner : Source)
  /-- What ties a join together. -/
  | constraint (inner : JoinConstraint)
  /-- A join. -/
  | join (inner : Join)
  /-- A join tree. -/
  | tree (inner : JoinTree)
  /-- A SELECT block. -/
  | block (inner : Select)
  /-- The body of a query. -/
  | body (inner : QueryBody)
  /-- A query with a name. -/
  | named (inner : CommonTable)
  /-- A query. -/
  | query (inner : Query)

namespace Node

/-- The expression that there may be. -/
def ofOption (e : Option Expr) : List Node := e.toList.map expr

/-- The numbers of a limit as they are written. -/
def ofLimit : LimitForm → (limit offset : Option Expr) → List Node
  | .comma, limit, offset => ofOption offset ++ ofOption limit
  | .words _, limit, offset => ofOption limit ++ ofOption offset

/-- The parts that an expression is made of. -/
def ofExpr : Expr → List Node
  | .name _ | .dotted _ | .wildcard | .tableWildcard _ | .literal _ | .fullText _ _ _
  | .typed _ _ => []
  | .introduced _ e | .unary _ e | .nested e | .isTest e _ _ | .cast _ e _ | .doubleColon e _
  | .convert e _ _ | .extract _ e | .rounded _ e _ | .collate e _ | .interval e _ => [expr e]
  | .binary left _ right | .distinctFrom left _ right | .quantified left _ _ right =>
    [expr left, expr right]
  | .like e _ _ _ pattern _ | .regexp e _ _ pattern => [expr e, expr pattern]
  | .memberOf value array => [expr value, expr array]
  | .atTimeZone time zone => [expr time, expr zone]
  | .position needle haystack => [expr needle, expr haystack]
  | .between e _ low high => [expr e, expr low, expr high]
  | .inList e _ items => expr e :: items.map expr
  | .access root parts => expr root :: parts.map expr
  | .tuple items => items.map expr
  | .choice operand arms otherwise => ofOption operand ++ arms.map arm ++ ofOption otherwise
  | .substring _ _ e start length => expr e :: (ofOption start ++ ofOption length)
  | .overlay e new start length => expr e :: expr new :: expr start :: ofOption length
  | .trimmed _ e what => expr e :: ofOption what
  | .inQuery e _ inner => [expr e, body inner]
  | .existsRow _ inner | .subquery inner => [query inner]
  | .call inner => [call inner]

/-- The parts that a part is made of, in the order in which their columns are listed. -/
def children : Node → List Node
  | expr inner => ofExpr inner
  | arm inner => [expr inner.condition, expr inner.result]
  | arg (.value _ e) => [expr e]
  | arg (.wildcard _ _) => []
  | call inner =>
    inner.args.map arg ++ inner.order.map key ++ ofOption inner.limit ++ [window inner.window] ++
      inner.within.map key
  | window .none | window (.named _) => []
  | window (.inline _ partition order _ counts) =>
    partition.map expr ++ order.map key ++ counts.map expr
  | key inner => [expr inner.key]
  | item (.value e _) => [expr e]
  | item (.wildcard _) => []
  | source (.table _ _ _ _) => []
  | source (.tableCall _ args _ _) | source (.routine _ args _) => args.map arg
  | source (.derived _ inner _) => [query inner]
  | source (.nested inner _) => [tree inner]
  | source (.document value _ _ _) | source (.ofValue value _) => [expr value]
  | constraint (.on condition) => [expr condition]
  | constraint (.using _) | constraint .natural | constraint .none => []
  | join inner => [source inner.target, constraint inner.constraint]
  | tree inner => source inner.base :: inner.joins.map join
  | block inner =>
    inner.items.map item ++ inner.sources.map tree ++ ofOption inner.selection ++
      inner.groupKeys.map expr ++ ofOption inner.having ++ inner.windows.map window
  | body (.select inner) => [block inner]
  | body (.values _ rows) => rows.map expr
  | body (.nested inner) => [query inner]
  | body (.combined left _ _ right) => [body left, body right]
  | named inner => [query inner.query]
  | query inner =>
    inner.tables.map named ++ [body inner.body] ++ inner.order.map key ++
      ofLimit inner.limitForm inner.limit inner.offset

/-- The columns of a part. -/
@[simp] def columns : Node → List String
  | expr inner => inner.columns
  | arm inner => inner.columns
  | arg inner => inner.columns
  | call inner => inner.columns
  | window inner => inner.columns
  | key inner => inner.columns
  | item inner => inner.columns
  | source inner => inner.columns
  | constraint inner => inner.columns
  | join inner => inner.columns
  | tree inner => inner.columns
  | block inner => inner.columns
  | body inner => inner.columns
  | named inner => inner.columns
  | query inner => inner.columns

/-- The columns that names stand for, by their last parts. -/
def lastParts (names : List ObjectName) : List String :=
  names.flatMap fun name => (name.getLast?.map Ident.value).toList

/-- The column that a part refers to, if it is a name that stands for a value. -/
def refers : Node → List String
  | expr (.name id) => [id.value]
  | expr (.dotted parts) => lastParts [parts]
  | _ => []

/-- The columns that a part lists by names that stand for no values. -/
def lists : Node → List String
  | expr (.fullText columns _ _) => lastParts columns
  | constraint (.using columns) => lastParts columns
  | _ => []

/-! ### Columns part by part -/

/-- The columns of the parts in a list, where `all` lists the columns item by item. -/
theorem flatMap_map {α : Type} {f : α → Node} {all : List α → List String} (nil : all [] = [])
    (cons : ∀ a as, all (a :: as) = (f a).columns ++ all as) (as : List α) :
    (as.map f).flatMap columns = all as := by
  induction as with
  | nil => exact nil.symm
  | cons a as ih => rw [List.map_cons, List.flatMap_cons, ih, cons]

@[simp] theorem flatMap_exprs (es : List Expr) :
    (es.map expr).flatMap columns = exprsColumns es :=
  flatMap_map rfl (fun _ _ => rfl) es

@[simp] theorem flatMap_arms (arms : List CaseArm) :
    (arms.map arm).flatMap columns = armsColumns arms :=
  flatMap_map rfl (fun _ _ => rfl) arms

@[simp] theorem flatMap_args (args : List Arg) :
    (args.map arg).flatMap columns = argsColumns args :=
  flatMap_map rfl (fun _ _ => rfl) args

@[simp] theorem flatMap_keys (keys : List OrderKey) :
    (keys.map key).flatMap columns = keysColumns keys :=
  flatMap_map rfl (fun _ _ => rfl) keys

@[simp] theorem flatMap_items (items : List SelectItem) :
    (items.map item).flatMap columns = itemsColumns items :=
  flatMap_map rfl (fun _ _ => rfl) items

@[simp] theorem flatMap_joins (joins : List Join) :
    (joins.map join).flatMap columns = joinsColumns joins :=
  flatMap_map rfl (fun _ _ => rfl) joins

@[simp] theorem flatMap_trees (trees : List JoinTree) :
    (trees.map tree).flatMap columns = treesColumns trees :=
  flatMap_map rfl (fun _ _ => rfl) trees

@[simp] theorem flatMap_windows (windows : List Window) :
    (windows.map window).flatMap columns = windowsColumns windows :=
  flatMap_map rfl (fun _ _ => rfl) windows

@[simp] theorem flatMap_tables (tables : List CommonTable) :
    (tables.map named).flatMap columns = tablesColumns tables :=
  flatMap_map rfl (fun _ _ => rfl) tables

@[simp] theorem flatMap_ofOption (e : Option Expr) :
    (ofOption e).flatMap columns = optionColumns e := by
  cases e with
  | none => rfl
  | some e => exact List.append_nil _

theorem columns_call (call : Call) : call.columns =
    argsColumns call.args ++ keysColumns call.order ++ optionColumns call.limit ++
      call.window.columns ++ keysColumns call.within := by
  obtain ⟨_, _, _, _, _, limit, _, _, _, _⟩ := call
  cases limit <;> rfl

theorem columns_block (block : Select) : block.columns =
    itemsColumns block.items ++ treesColumns block.sources ++ optionColumns block.selection ++
      exprsColumns block.groupKeys ++ optionColumns block.having ++
        windowsColumns block.windows := by
  obtain ⟨_, _, _, _, _, selection, _, _, _, having, _, _⟩ := block
  cases selection <;> cases having <;> rfl

theorem columns_query (query : Query) : query.columns =
    tablesColumns query.tables ++ query.body.columns ++ keysColumns query.order ++
      (ofLimit query.limitForm query.limit query.offset).flatMap columns := by
  obtain ⟨_, _, _, _, limit, offset, form, _⟩ := query
  -- both numbers are listed in the order in which the form writes them
  cases form with
  | comma | words _ =>
    rw [ofLimit, List.flatMap_append, flatMap_ofOption, flatMap_ofOption]
    cases limit <;> cases offset <;> rfl

/-- The columns of an expression are those it refers to and those of the parts it is made of. -/
theorem columns_expr (e : Expr) :
    e.columns = (expr e).refers ++ (ofExpr e).flatMap columns := by
  cases e
  case choice operand arms otherwise =>
    cases operand <;> cases otherwise <;>
      simp [ofExpr, refers, Expr.columns, optionColumns]
  case substring short commas e start length =>
    cases start <;> cases length <;> simp [ofExpr, refers, Expr.columns, optionColumns]
  case overlay e new start length =>
    cases length <;> simp [ofExpr, refers, Expr.columns, optionColumns]
  case trimmed side e what =>
    cases what <;> simp [ofExpr, refers, Expr.columns, optionColumns]
  all_goals simp [ofExpr, refers, lastParts, Expr.columns]

/-- The columns of a part are those it refers to and those of the parts it is made of. -/
theorem columns_eq (node : Node) :
    node.columns = node.refers ++ node.children.flatMap columns := by
  cases node with
  | expr inner => exact columns_expr inner
  | arm inner => cases inner; simp [children, refers, CaseArm.columns]
  | arg inner => cases inner <;> simp [children, refers, Arg.columns]
  | call inner => simp [children, refers, columns_call]
  | window inner => cases inner <;> simp [children, refers, Window.columns]
  | key inner => cases inner; simp [children, refers, OrderKey.columns]
  | item inner => cases inner <;> simp [children, refers, SelectItem.columns]
  | source inner => cases inner <;> simp [children, refers, Source.columns]
  | constraint inner => cases inner <;> simp [children, refers, JoinConstraint.columns]
  | join inner => cases inner; simp [children, refers, Join.columns]
  | tree inner => cases inner; simp [children, refers, JoinTree.columns]
  | block inner => simp [children, refers, columns_block]
  | body inner => cases inner <;> simp [children, refers, QueryBody.columns]
  | named inner => cases inner; simp [children, refers, CommonTable.columns]
  | query inner => simp [children, refers, columns_query]

/-! ### Parts at any depth -/

/-- The parts of an expression are smaller. -/
theorem sizeOf_ofExpr (e : Expr) : ∀ child ∈ ofExpr e, sizeOf child < 1 + sizeOf e := by
  -- what is left of each part is a sum, an item of a list, or what there may be
  cases e <;> simp [ofExpr, ofOption, or_imp, forall_and] <;> and_intros
  all_goals first
    | omega
    | (intro a m; have := List.sizeOf_lt_of_mem m; omega)
    | (rintro a rfl; simp only [Option.some.sizeOf_spec]; omega)

theorem mem_ofLimit {form : LimitForm} {limit offset : Option Expr} {node : Node} :
    node ∈ ofLimit form limit offset ↔ node ∈ ofOption limit ∨ node ∈ ofOption offset := by
  cases form <;> simp [ofLimit, or_comm]

/-- The parts that a part is made of are smaller. -/
theorem sizeOf_children (node : Node) : ∀ child ∈ node.children, sizeOf child < sizeOf node := by
  cases node
  case expr inner => exact sizeOf_ofExpr inner
  all_goals
    rename_i inner
    cases inner <;> simp [children, ofOption, mem_ofLimit, or_imp, forall_and] <;> and_intros
  all_goals first
    | omega
    | (intro a m; have := List.sizeOf_lt_of_mem m; omega)
    | (rintro a rfl; simp only [Option.some.sizeOf_spec]; omega)

/-- A part stands in another one, at any depth. -/
inductive Within (inner : Node) : Node → Prop where
  /-- A part stands in itself. -/
  | refl : Within inner inner
  /-- A part stands in what it is a part of. -/
  | child {part node : Node} (m : part ∈ node.children) (h : Within inner part) :
      Within inner node

/-- What stands in a part stands in what the part stands in. -/
theorem Within.trans {inner part node : Node} (h : Within inner part) (h' : Within part node) :
    Within inner node := by
  induction h' with
  | refl => exact h
  | child m _ ih => exact .child m ih

/-- The columns of a part are those that a name in it refers to, at any depth. -/
theorem mem_columns_iff {node : Node} {column : String} :
    column ∈ node.columns ↔ ∃ inner, Within inner node ∧ column ∈ inner.refers := by
  constructor
  · intro m
    -- every part is smaller than what it is a part of
    induction size : sizeOf node using Nat.strongRecOn generalizing node with
    | ind size ih =>
      subst size
      rw [columns_eq, List.mem_append, List.mem_flatMap] at m
      rcases m with here | ⟨part, mem, m⟩
      · exact ⟨node, .refl, here⟩
      · obtain ⟨inner, within, refers⟩ := ih _ (sizeOf_children node part mem) m rfl
        exact ⟨inner, .child mem within, refers⟩
  · rintro ⟨inner, within, refers⟩
    induction within with
    | refl =>
      rw [columns_eq]
      exact List.mem_append_left _ refers
    | child mem _ ih =>
      rw [columns_eq]
      exact List.mem_append_right _ (List.mem_flatMap.mpr ⟨_, mem, ih⟩)

end Node

/-! ## Statements -/

namespace Sql.Statement

/-- The parts of a statement whose columns are listed. -/
def parts : Statement → List Node
  | .update s =>
    .tree s.target :: (s.assignments.map (Node.expr ·.value) ++ s.sources.map .tree ++
      Node.ofOption s.selection)
  | .delete s =>
    (s.sources ++ s.further).map .tree ++ Node.ofOption s.selection ++ s.order.map .key ++
      Node.ofOption s.limit
  | .query s => [.query s]
  | _ => []

/-- The columns that a statement gives a value to. -/
def assigned : Statement → List String
  | .update s => s.assignments.flatMap (·.target.columns)
  | _ => []

/-- A part stands in a statement, at any depth. -/
def Holds (statement : Statement) (inner : Node) : Prop :=
  ∃ part ∈ statement.parts, Node.Within inner part

/-- A statement gives a column a value, or refers to it by a name anywhere in it. -/
def Mentions (statement : Statement) (column : String) : Prop :=
  column ∈ statement.assigned ∨ ∃ inner, statement.Holds inner ∧ column ∈ inner.refers

end Sql.Statement

/-- The columns of a statement that picks out rows are those that it mentions. -/
theorem mem_columns_footprint {statement : Statement} {action : Action}
    (rows : statement.rowsAction? = some action) {column : String} :
    column ∈ statement.footprint.columns ↔ statement.Mentions column := by
  have listed : column ∈ statement.footprint.columns ↔
      column ∈ statement.assigned ∨ column ∈ statement.parts.flatMap Node.columns := by
    cases statement with
    | update s =>
      -- the values stand between the columns that they are given to
      have values : column ∈ s.assignments.flatMap Assignment.columns ↔
          column ∈ s.assignments.flatMap (·.target.columns) ∨
            column ∈ (s.assignments.map (Node.expr ·.value)).flatMap Node.columns := by
        simp [Assignment.columns, List.mem_flatMap, and_or_left, exists_or]
      show column ∈ s.columns ↔ _
      simp only [Update.columns, Statement.assigned, Statement.parts, List.flatMap_cons,
        List.flatMap_append, Node.flatMap_trees, Node.flatMap_ofOption, List.mem_append, values,
        Node.columns]
      tauto
    | delete s =>
      show column ∈ s.columns ↔ _
      simp only [Delete.columns, Statement.assigned, Statement.parts, List.flatMap_append,
        Node.flatMap_trees, Node.flatMap_ofOption, Node.flatMap_keys, List.not_mem_nil, false_or]
    | query s =>
      show column ∈ s.columns ↔ _
      simp [Statement.assigned, Statement.parts]
    | insert | alterTable | createTable | dropTable | truncate | other => cases rows
  rw [listed, Statement.Mentions, List.mem_flatMap]
  refine or_congr_right ?_
  simp only [Node.mem_columns_iff, Statement.Holds]
  constructor
  · rintro ⟨part, m, inner, within, refers⟩
    exact ⟨inner, ⟨part, m, within⟩, refers⟩
  · rintro ⟨inner, ⟨part, m, within⟩, refers⟩
    exact ⟨part, m, inner, within, refers⟩

namespace Sql.JoinConstraint

/-- A name in a constraint refers to a column. -/
def RefersTo (constraint : JoinConstraint) (column : String) : Prop :=
  ∃ inner, Node.Within inner (.constraint constraint) ∧ column ∈ inner.refers

/-- A constraint lists a column by a name that stands for no value. -/
def Lists (constraint : JoinConstraint) (column : String) : Prop :=
  ∃ inner, Node.Within inner (.constraint constraint) ∧ column ∈ inner.lists

/-- A constraint names a column. -/
def Names (constraint : JoinConstraint) (column : String) : Prop :=
  constraint.RefersTo column ∨ constraint.Lists column

end Sql.JoinConstraint

/-- The columns that the constraint of a join refers to are listed, at any depth of a statement. All
columns that it names are, exactly if those that it only lists are mentioned by the statement. -/
theorem harvests_iff {statement : Statement} {action : Action}
    (rows : statement.rowsAction? = some action) {join : Join}
    (held : statement.Holds (.join join)) :
    (∀ column, join.constraint.RefersTo column → column ∈ statement.footprint.columns) ∧
      ((∀ column, join.constraint.Names column → column ∈ statement.footprint.columns) ↔
        ∀ column, join.constraint.Lists column → statement.Mentions column) := by
  have referred (column : String) (h : join.constraint.RefersTo column) :
      column ∈ statement.footprint.columns := by
    -- what stands in the constraint stands in the statement
    obtain ⟨inner, within, refers⟩ := h
    obtain ⟨part, m, inside⟩ := held
    have inJoin : Node.Within (.constraint join.constraint) (.join join) :=
      .child (List.mem_cons_of_mem _ List.mem_cons_self) .refl
    exact (mem_columns_footprint rows).mpr
      (.inr ⟨inner, ⟨part, m, (within.trans inJoin).trans inside⟩, refers⟩)
  refine ⟨referred, ?_⟩
  constructor
  · intro all column lists
    exact (mem_columns_footprint rows).mp (all column (.inr lists))
  · rintro mentioned column (refers | lists)
    · exact referred column refers
    · exact (mem_columns_footprint rows).mpr (mentioned column lists)

/-- The join of posts that have the same `user_id`. -/
def usingUserId : Join :=
  ⟨.plain, (namedTable "posts" none).base, .using [[⟨"user_id", none⟩]]⟩

/-- Users with their posts. -/
def usersWithPosts : JoinTree := ⟨(namedTable "users" none).base, [usingUserId]⟩

/-- The block that takes some items of users with their posts, which are joined in parentheses. -/
def usersBlock (items : List SelectItem) : Select :=
  { Select.ofSources [⟨.nested usersWithPosts none, []⟩] none with items }

/-- The query of some items of users with their posts. -/
def usersQuery (items : List SelectItem) : Statement :=
  .query (.ofBody (.select (usersBlock items)))

/-- The join in parentheses stands in the query. -/
theorem holds_usingUserId (items : List SelectItem) :
    (usersQuery items).Holds (.join usingUserId) := by
  have inTree : Node.Within (.join usingUserId) (.tree usersWithPosts) :=
    .child (List.mem_cons_of_mem _ List.mem_cons_self) .refl
  have inSource : Node.Within (.join usingUserId) (.source (.nested usersWithPosts none)) :=
    .child List.mem_cons_self inTree
  have inSources : Node.Within (.join usingUserId) (.tree ⟨.nested usersWithPosts none, []⟩) :=
    .child List.mem_cons_self inSource
  have inBlock : Node.Within (.join usingUserId) (.block (usersBlock items)) :=
    .child (by simp [Node.children, usersBlock, Select.ofSources]) inSources
  have inBody : Node.Within (.join usingUserId) (.body (.select (usersBlock items))) :=
    .child List.mem_cons_self inBlock
  exact ⟨_, List.mem_cons_self, .child List.mem_cons_self inBody⟩

/-- The column `user_id`. -/
def userId : SelectItem := .value (.name ⟨"user_id", none⟩) none

/-- The column that users and their posts are joined on is listed if it is selected. -/
theorem harvests_selected : (usersQuery [userId]).rowsAction? = some .select ∧
    (usersQuery [userId]).Holds (.join usingUserId) ∧
      ∀ column, usingUserId.constraint.Names column →
        column ∈ (usersQuery [userId]).footprint.columns := by
  have held := holds_usingUserId [userId]
  refine ⟨rfl, held, (harvests_iff rfl held).2.mpr ?_⟩
  rintro column ⟨inner, within, lists⟩
  have rows : (usersQuery [userId]).rowsAction? = some .select := rfl
  cases within with
  | refl =>
    obtain rfl : column = "user_id" := List.mem_singleton.mp lists
    exact (mem_columns_footprint rows).mp (by decide +kernel)
  | child m _ => cases m

/-- Not every column that a constraint names is listed: the one that users and their posts are
joined on is not, where all columns are selected. -/
theorem not_forall_harvests : ¬∀ statement : Statement, statement.rowsAction?.isSome →
    ∀ join, statement.Holds (.join join) → ∀ column, join.constraint.Names column →
      column ∈ statement.footprint.columns := by
  intro all
  have listed := all (usersQuery [.wildcard []]) rfl usingUserId (holds_usingUserId _) "user_id"
    (.inr ⟨_, .refl, List.mem_singleton_self _⟩)
  exact absurd listed (by decide +kernel)

end SqlFootprint
