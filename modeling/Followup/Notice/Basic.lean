/-! A notice to be delivered, and what can go wrong with it on its way. -/

namespace Followup

structure Notice where
  subject : String
  body : String
  metadata : List (String × String)
deriving DecidableEq

inductive NoticeError where
  | http
  | template
  | config (reason : String)
deriving DecidableEq

def NoticeError.message : NoticeError → String
  | http => "HTTP request failed"
  | template => "Template rendering failed"
  | config reason => s!"Configuration error: {reason}"

end Followup
