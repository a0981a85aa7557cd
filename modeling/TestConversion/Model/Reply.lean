import TestConversion.Json.Reader
import TestConversion.Model.Failure

/-!
# Replies of a model

A reply is a status with the bytes of a body. From a status of 400 on it is a refusal; otherwise its
body is read against the form of the backend's answers, all of it, and the text of the first choice
or of the first block of text is the answer.

The bytes are turned into text by the library that carries requests. All of a body has to be UTF-8
here, whereas a library that reads it piece by piece need not look at bytes that no shape asks for.
What a refusal shows of bytes that are not UTF-8 is up to the library; no property tells it.
-/

namespace TestConversion.Model

open Json (Shape)

structure Reply where
  status : Nat
  body : ByteArray

namespace Reply

/-- The body, if it is UTF-8. -/
def text? (r : Reply) : Option String := String.fromUTF8? r.body

def isSuccess (r : Reply) : Bool := 200 ≤ r.status && r.status < 300

end Reply

def chatShape : Shape :=
  .record [("choices", .list (.record [("message", .record [("content", .text)])]))]

def messagesShape : Shape :=
  .record [("content", .list (.record [("type", .text), ("text", .text)]))]

/-- The text of the first choice. -/
def chatText (v : Json) : Except Failure String :=
  match ((v.member? "choices").getD .null).items with
  | [] => .error .noChoice
  | choice :: _ =>
    .ok ((((choice.member? "message").bind (·.member? "content")).bind Json.string?).getD "")

/-- The text of the first block of text. -/
def blockText (v : Json) : Except Failure String :=
  let blocks := ((v.member? "content").getD .null).items
  match blocks.find? fun b => (b.member? "type").bind Json.string? == some "text" with
  | some b => .ok (((b.member? "text").bind Json.string?).getD "")
  | none => .error .noText

def complaintOf : Json.Failure → String
  | .ended => "json: EOF while parsing a value"
  | .malformed => "json: expected value"
  | .mismatched => "json: invalid type"

/-- What a refusal shows of its body. -/
def Reply.refusalText (r : Reply) : String := r.text?.getD ""

/-- The body read against a shape. -/
def Reply.decode (r : Reply) (shape : Shape) : Except Failure Json :=
  match r.text? with
  | none => .error (.malformed (complaintOf .malformed))
  | some text =>
    match Json.decode shape text with
    | .ok v => .ok v
    | .error e => .error (.malformed (complaintOf e))

/-- The answer in a reply of a backend. -/
def Reply.answer (r : Reply) (b : Backend) : Except Failure String :=
  if 400 ≤ r.status then .error (.refused r.status r.refusalText)
  else if b.speaksChat then (r.decode chatShape).bind chatText
  else (r.decode messagesShape).bind blockText

theorem Reply.refusalText_of_text? {r : Reply} {text : String} (h : r.text? = some text) :
    r.refusalText = text := by
  simp [refusalText, h]

end TestConversion.Model
