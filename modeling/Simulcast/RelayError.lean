import Simulcast.TransportFault
/-!
# Errors of the relay

Each error is a cause with the data that its text shows.
-/

namespace Simulcast

/-- Why the relay refuses or fails. -/
inductive RelayError where
  /-- No stream key was given. -/
  | missingAuthorization
  /-- The stream key is not accepted. -/
  | unauthorized
  /-- No stream is registered under the key. -/
  | streamNotFound (key : String)
  /-- The stream is held by another broadcaster. -/
  | streamAlreadyPublishing (key : String)
  /-- The stream is registered but not live. -/
  | streamNotActive (key : String)
  /-- No live stream has the viewer. -/
  | sessionNotFound (id : String)
  /-- Candidates were not gathered in time. -/
  | negotiationTimeout
  /-- The media transport failed. -/
  | webRtc (fault : TransportFault)
  /-- The network failed. -/
  | network (text : String)
  /-- The request cannot be understood. -/
  | invalidRequest (text : String)
  deriving DecidableEq, Repr, Inhabited

namespace RelayError

/-- The text of an error. -/
def message : RelayError → String
  | missingAuthorization => "Authorization was not set"
  | unauthorized => "Stream key is not valid"
  | streamNotFound key => "Stream not found: " ++ key
  | streamAlreadyPublishing key => "Stream already has a publisher: " ++ key
  | streamNotActive key => "Stream not active: " ++ key
  | sessionNotFound id => "Session not found: " ++ id
  | negotiationTimeout => "ICE candidate gathering timed out"
  | webRtc fault => "WebRTC error: " ++ fault.message
  | network text => "IO error: " ++ text
  | invalidRequest text => "Invalid request: " ++ text

/-- The error says that a stream is not there to be watched. -/
def isNotFound : RelayError → Bool
  | streamNotFound _ | streamNotActive _ => true
  | _ => false

end RelayError

end Simulcast
