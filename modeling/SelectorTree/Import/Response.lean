/-!
# Answers to requests

A request for a stylesheet is answered with a status and a text, or not at all.
A status that tells of a failure is still an answer.
-/

namespace SelectorTree

/-- A status and the text that came with it. -/
structure Response where
  status : Nat
  body : String
deriving DecidableEq

/-- The statuses from 200 to 299 tell of a success. -/
def Response.isSuccess (response : Response) : Bool :=
  200 ≤ response.status && response.status < 300

/-- Why there is no answer. -/
inductive FetchError where
  | client (reason : String)
  | request (url reason : String)
  | body (url reason : String)
  | dataUrl (reason : String)
deriving DecidableEq

def FetchError.message : FetchError → String
  | client reason => "failed to create HTTP client: " ++ reason
  | request url reason => "request to " ++ url ++ " failed: " ++ reason
  | body url reason => "failed to read response body from " ++ url ++ ": " ++ reason
  | dataUrl reason => "invalid data URL: " ++ reason

end SelectorTree
