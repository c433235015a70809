import SqlFootprint.Sql.Parser.Expr
import SqlFootprint.Sql.Parser.Rows

/-! # Parsing statements about the session

The statements that show or set something, open or close a transaction, lock tables or call a
procedure, each after its first keyword. Each gives its canonical text. -/

namespace SqlFootprint.Sql.Parser

/-! ## Showing -/

/-- What limits the lines shown, in words, if something does. -/
def showFilter? (g : Grammar) : Parser String := do
  if ← keyword? "LIKE" then return "LIKE " ++ Text.doubled '\x27' (← textLiteral)
  if ← keyword? "ILIKE" then return "ILIKE '" ++ (← textLiteral) ++ "'"
  if ← keyword? "WHERE" then return "WHERE " ++ (← g.full).written
  match ← peek with
  | some ⟨.literal (.text ..), _⟩ => return "'" ++ (← textLiteral) ++ "'"
  | _ => return ""

/-- The table or database that is shown, in words; a database may follow its table. -/
def showPlace? : Parser String := do
  match ← oneOf? ["FROM", "IN"] with
  | none => return ""
  | some word =>
    let name ← objectName
    let database ← if (← oneOf? ["FROM", "IN"]).isSome then pure [← ident] else pure []
    return word ++ " " ++ ObjectName.written (database ++ name)

/-- Words, a place and a filter. -/
def showListing (g : Grammar) (words : List String) : Parser String := do
  let place ← showPlace?
  return joinWords (words ++ [place, ← showFilter? g])

/-- The words of the next tokens up to an equals sign or the end; other tokens are passed over. -/
def looseWords : List Lexeme → List String × List Lexeme
  | [] => ([], [])
  | ⟨.sign .eq, start⟩ :: rest => ([], ⟨.sign .eq, start⟩ :: rest)
  | ⟨.word name, _⟩ :: rest =>
    let (words, behind) := looseWords rest
    (name.written :: words, behind)
  | _ :: rest => looseWords rest

/-- A statement that shows something, after its keyword. -/
def showStatement (g : Grammar) : Parser String := do
  let extended ← optionalWord "EXTENDED"
  let full ← optionalWord "FULL"
  let session ← optionalWord "SESSION"
  let global ← optionalWord "GLOBAL"
  if (← oneOf? ["COLUMNS", "FIELDS"]).isSome then
    return ← showListing g ["SHOW", extended, full, "COLUMNS"]
  if ← keyword? "TABLES" then return ← showListing g ["SHOW", extended, full, "TABLES"]
  if !extended.isEmpty || !full.isEmpty then
    fail (.fault "EXTENDED/FULL are not supported with this type of SHOW query" none)
  if ← keyword? "CREATE" then
    let kind ← oneOf ["TABLE", "TRIGGER", "FUNCTION", "PROCEDURE", "EVENT", "VIEW"]
    return "SHOW CREATE " ++ kind ++ " " ++ ObjectName.written (← objectName)
  if ← keyword? "COLLATION" then return joinWords ["SHOW COLLATION", ← showFilter? g]
  if ← keyword? "VARIABLES" then
    return joinWords ["SHOW", global, session, "VARIABLES", ← showFilter? g]
  if ← keyword? "STATUS" then
    return joinWords ["SHOW", global, session, "STATUS", ← showFilter? g]
  if ← keyword? "DATABASES" then return ← showListing g ["SHOW", "DATABASES"]
  if ← keyword? "SCHEMAS" then return ← showListing g ["SHOW", "SCHEMAS"]
  let words : Parser (List String) := fun tokens => .ok (looseWords tokens)
  return joinWords ("SHOW" :: (← words))

/-! ## Transactions -/

/-- How a transaction sees and changes the data, if a mode comes next. -/
def transactionMode? : Parser (Option String) := do
  if ← keywords? ["ISOLATION", "LEVEL"] then
    if ← keywords? ["READ", "UNCOMMITTED"] then return some "ISOLATION LEVEL READ UNCOMMITTED"
    if ← keywords? ["READ", "COMMITTED"] then return some "ISOLATION LEVEL READ COMMITTED"
    if ← keywords? ["REPEATABLE", "READ"] then return some "ISOLATION LEVEL REPEATABLE READ"
    if ← keyword? "SERIALIZABLE" then return some "ISOLATION LEVEL SERIALIZABLE"
    if ← keyword? "SNAPSHOT" then return some "ISOLATION LEVEL SNAPSHOT"
    expected "isolation level"
  if ← keywords? ["READ", "ONLY"] then return some "READ ONLY"
  if ← keywords? ["READ", "WRITE"] then return some "READ WRITE"
  return none

/-- The modes of a transaction; a comma has to be followed by a mode. -/
def transactionModes : Parser String := do
  let modes ← many do
    match ← transactionMode? with
    | none => return none
    | some mode =>
      if ← sign? .comma then
        let more := (← attempt transactionMode?).join.isSome
        if !more then expected "transaction mode"
      return some mode
  return ", ".intercalate modes

/-- The opening of a transaction, after `START`. -/
def startTransaction : Parser String := do
  keyword "TRANSACTION"
  return joinWords ["START TRANSACTION", ← transactionModes]

/-- The opening of a transaction, after `BEGIN`. -/
def beginTransaction : Parser String := do
  let word := (← oneOf? ["TRANSACTION", "WORK"]).getD ""
  return joinWords ["BEGIN", word, ← transactionModes]

/-- Whether another transaction follows at once, in words. -/
def chain? : Parser String := do
  let _ ← oneOf? ["TRANSACTION", "WORK"]
  if ← keyword? "AND" then
    let no ← keyword? "NO"
    keyword "CHAIN"
    return if no then "" else "AND CHAIN"
  return ""

/-- The end of a transaction that keeps its changes, after the keyword. -/
def commit : Parser String := return joinWords ["COMMIT", ← chain?]

/-- The end of a transaction that drops its changes, after the keyword. -/
def rollback : Parser String := do
  let chain ← chain?
  let savepoint ← if ← keyword? "TO" then do
      let _ ← keyword? "SAVEPOINT"
      pure ("TO SAVEPOINT " ++ (← ident).written)
    else pure ""
  return joinWords ["ROLLBACK", chain, savepoint]

/-! ## Setting -/

/-- The equals sign of a setting, or the word for it. -/
def settingSign : Parser Bool := return (← sign? .eq) || (← keyword? "TO")

/-- For whom a setting holds, in words. -/
def settingScope? : Parser String := return (← oneOf? ["SESSION", "LOCAL", "GLOBAL"]).getD ""

/-- A setting of one variable. -/
def setting (g : Grammar) : Parser String := do
  let scope ← settingScope?
  let name ← objectName
  unless ← settingSign do expected "assignment operator"
  return joinWords [scope, ObjectName.written name, "=", (← g.full).written]

/-- The values of a variable that takes several. -/
def settingValues (g : Grammar) : Parser String := do
  let values ← commaList do
    match ← attempt g.full with
    | some value => return value
    | none => expected "variable value"
  return commaSep (writtenExprs values)

/-- The settings of a statement that are no plain variables, if one comes next. -/
def specialSetting? (g : Grammar) : Parser (Option String) := do
  let _ ← settingScope?
  if (← keywords? ["TIME", "ZONE"]) || (← keyword? "TIMEZONE") then
    if ← settingSign then return some ("SET TIMEZONE = " ++ (← settingValues g))
    return some ("SET TIME ZONE " ++ (← g.full).written)
  if ← keyword? "NAMES" then
    if ← keyword? "DEFAULT" then return some "SET NAMES DEFAULT"
    let charset ← ident
    let collation ← after? "COLLATE" textLiteral
    return some ("SET NAMES " ++ charset.written ++
      (match collation with | none => "" | some name => " COLLATE " ++ name))
  if ← keyword? "CHARACTERISTICS" then
    keywords ["AS", "TRANSACTION"]
    return some (joinWords ["SET SESSION CHARACTERISTICS AS TRANSACTION", ← transactionModes])
  if ← keyword? "TRANSACTION" then return some (joinWords ["SET TRANSACTION", ← transactionModes])
  return none

/-- A statement that sets something, after its keyword. -/
def set (g : Grammar) : Parser String := do
  let tokens ← get
  match ← specialSetting? g with
  | some text => return text
  | none =>
    modifyGet fun _ => ((), tokens)
    match ← attempt (commaList (setting g)) with
    | some settings => return "SET " ++ commaSep settings
    | none =>
      let name ← objectName
      unless ← settingSign do expected "equals sign or TO"
      return "SET " ++ ObjectName.written name ++ " = " ++ (← settingValues g)

/-! ## Locks and calls -/

/-- A table and the lock on it. -/
def tableLock : Parser String := do
  let table ← ident
  let asName ← secondName? ["READ", "WRITE", "LOW_PRIORITY"]
  let lock ← if ← keyword? "READ" then
      if ← keyword? "LOCAL" then pure "READ LOCAL" else pure "READ"
    else if ← keyword? "WRITE" then pure "WRITE"
    else if ← keywords? ["LOW_PRIORITY", "WRITE"] then pure "LOW_PRIORITY WRITE"
    else expected "an lock type in LOCK TABLES"
  return joinWords [table.written,
    match asName with | none => "" | some name => "AS " ++ name.written, lock]

/-- A call of a procedure, after the keyword. -/
def callStatement (g : Grammar) : Parser String := do
  let name ← objectName
  let procedure ← if ← isSign .leftParen then call g name else pure (.call (bareCall name false))
  return "CALL " ++ procedure.written

end SqlFootprint.Sql.Parser
