import TagScript.Engine.Attribute

/-!
# Files as runners see them

A runner reads the first file of a name along the search path, and writes
into the first directory of the search path, holding the file's lock. All
files are texts, whatever encoding a tag may name for them.
-/

namespace TagScript.Run

/-- The encodings that a tag may name. -/
def encodings : List String := ["", "utf-8", "utf8", "utf-8-sig"]

/-- Refuses a tag that names another encoding. -/
def checkEncoding (tag : Tag) : Run Unit := do
  let encoding := Text.lower (← attrKey tag "encoding")
  if encodings.contains encoding then pure () else fail (.encoding encoding)

/-- Refuses a tag that names another type of table. -/
def checkTableType (tag : Tag) : Run Unit := do
  let type ← attrKey tag "type"
  if type.isEmpty || Text.sameIgnoringCase type "csv" then pure () else fail (.fileType type)

/-- **Reads a file by name**, without the byte order marks in front of
it. -/
def readFile (name : String) : Run String := do
  let w ← look (·.world)
  let path := w.resolve name
  match w.files.readText path with
  | .ok source => pure (Text.dropMarks source)
  | .error why => fail (.cannotRead path why)

/-- The path a runner writes to. -/
def outputPath (name : String) : Run String := look fun s => Path.join s.world.primaryDir name

/-- **Writes a file**, holding its lock: the text is made from what the
file holds once it is open. -/
def writeFile (mode : Files.WriteMode) (path : String) (text : Content → String)
    (refused : String → Refusal → Cause) : Run Unit := do
  changeWorld (·.lock path)
  match (← look (·.world.files)).write mode path text with
  | .ok files => changeWorld fun w => { w with files }
  | .error why => fail (refused path why)

section Answers

variable {s : Frame} {name : String}

/-- What a file reads as is what it holds, without the marks in front. -/
theorem readFile_of_readText {text : String}
    (h : s.world.files.readText (s.world.resolve name) = .ok text) :
    readFile name s = .done (Text.dropMarks text) s := by
  have hworld : look (·.world) s = .done s.world s := rfl
  unfold readFile
  rw [bind_of_done hworld, h]
  rfl

/-- A file that cannot be read makes the runner fault. -/
theorem readFile_of_error {why : Refusal}
    (h : s.world.files.readText (s.world.resolve name) = .error why) :
    readFile name s = .failed (.of (.cannotRead (s.world.resolve name) why)) s := by
  have hworld : look (·.world) s = .done s.world s := rfl
  unfold readFile
  rw [bind_of_done hworld, h]
  rfl

variable {mode : Files.WriteMode} {path : String} {text : Content → String}
  {refused : String → Refusal → Cause}

/-- A file that can be written is, and its lock has been asked for. -/
theorem writeFile_of_ok {files : Files} (h : s.world.files.write mode path text = .ok files) :
    writeFile mode path text refused s =
      .done () { s with world := { s.world.lock path with files } } := by
  have hlock : changeWorld (·.lock path) s = .done () { s with world := s.world.lock path } := rfl
  have hfiles : look (·.world.files) { s with world := s.world.lock path } =
      .done s.world.files { s with world := s.world.lock path } := rfl
  unfold writeFile
  rw [bind_of_done hlock, bind_of_done hfiles, h]
  rfl

/-- One that cannot be written leaves the lock behind. -/
theorem writeFile_of_error {why : Refusal}
    (h : s.world.files.write mode path text = .error why) :
    writeFile mode path text refused s =
      .failed (.of (refused path why)) { s with world := s.world.lock path } := by
  have hlock : changeWorld (·.lock path) s = .done () { s with world := s.world.lock path } := rfl
  have hfiles : look (·.world.files) { s with world := s.world.lock path } =
      .done s.world.files { s with world := s.world.lock path } := rfl
  unfold writeFile
  rw [bind_of_done hlock, bind_of_done hfiles, h]
  rfl

end Answers

end TagScript.Run
