import UriTemplate.Context
import UriTemplate.Expansion

/-!
# Sessions

A session keeps a context and a template between steps. A step that fails leaves both as they
were.
-/

namespace UriTemplate

/-- A context, and a template once one has been read. -/
structure Session where
  context : Value
  template : Option Template

/-- The session without variables and without a template. -/
def Session.start : Session := ⟨emptyContext, none⟩

/-- What may be done in a session. -/
inductive SessionStep
  /-- Take another context. -/
  | useContext (context : Value)
  /-- Read another context. -/
  | load (format : ContextFormat) (text : Text)
  /-- Set a variable. -/
  | assign (text : Text)
  /-- Read another template. -/
  | useTemplate (text : Text)
  /-- Expand the template. -/
  | run
  /-- Resolve a variable. -/
  | resolve (name : Text)

/-- What a step answers. -/
inductive SessionAnswer
  | context (context : Value)
  | template (template : Template)
  | text (text : Text)
  | shape (shape : Shape)
  | noTemplate
  | badContext (error : ContextError)
  | badAssignment (error : AssignmentError)
  | badTemplate (error : SyntaxError)
  | badShape (error : ShapeError)

namespace Session

/-- The session with another context, which is the answer. -/
def withContext (s : Session) (context : Value) : Session × SessionAnswer :=
  ({ s with context }, .context context)

/-- The session behind a step, and the answer. -/
def step (s : Session) : SessionStep → Session × SessionAnswer
  | .useContext context => s.withContext context
  | .load format text =>
    match parseContext format text with
    | .ok context => s.withContext context
    | .error e => (s, .badContext e)
  | .assign text =>
    match parseAssignment text with
    | .ok assignment => s.withContext (applyOverrides s.context [assignment])
    | .error e => (s, .badAssignment e)
  | .useTemplate text =>
    match Template.parse text with
    | .ok t => ({ s with template := some t }, .template t)
    | .error e => (s, .badTemplate e)
  | .run =>
    match s.template with
    | none => (s, .noTemplate)
    | some t =>
      match t.expand s.context with
      | .ok text => (s, .text text)
      | .error e => (s, .badShape e)
  | .resolve name =>
    match s.context.resolve name with
    | .ok shape => (s, .shape shape)
    | .error e => (s, .badShape e)

/-- The answers to some steps. -/
def run (s : Session) : List SessionStep → List SessionAnswer
  | [] => []
  | step :: steps =>
    let (s, answer) := s.step step
    answer :: s.run steps

end Session

end UriTemplate
