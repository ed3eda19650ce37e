/-!
# Reserved variables

The interpreter keeps some variables of its own among those of a script.
Data read from files never binds them, and neither do the parameters of a
call.
-/

namespace TagScript.Reserved

/-- How many lines of data the file being loaded has. -/
def loadedDataCount : String := "__loaded_data_count__"
/-- Which row of the file is being worked on. -/
def loadedDataItemIndex : String := "__loaded_data_item_index__"
/-- The columns of the file being loaded. -/
def loadedDataCols : String := "__loaded_data_cols__"
/-- The exception handler in force. -/
def exceptionsHandler : String := "__exceptions_handler__"
/-- The report of the last fault. -/
def debug : String := "__debug__"
/-- The depth of the tag last executed. -/
def depth : String := "__depth__"
/-- When the last tag was executed. -/
def logDatetime : String := "__log_datetime__"
/-- The key of the current round of an iteration. -/
def forInKey : String := "__for_in_key__"
/-- The value of the current round of an iteration. -/
def forInValue : String := "__for_in_value__"
/-- The privileges of a scope. -/
def procPrivilege : String := "__proc_privilege__"
/-- The name of the script. -/
def scriptName : String := "__script_name__"
/-- The directory of the script. -/
def workingDir : String := "__working_dir__"

/-- **The reserved variables.** -/
def all : List String :=
  [loadedDataCount, loadedDataItemIndex, loadedDataCols, exceptionsHandler, debug, depth,
    logDatetime, forInKey, forInValue, procPrivilege, scriptName, workingDir]

/-- Whether a variable is reserved. -/
def isReserved (name : String) : Bool := all.contains name

end TagScript.Reserved
