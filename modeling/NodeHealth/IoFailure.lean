/-!
# Input and output failures

A failed operation on a socket, a stream or a file has a cause and a text. The text of a
failure that the system reports follows from its cause; a scripted stream brings its own.
-/

namespace NodeHealth

/-- Why an operation on a socket, a stream or a file failed. -/
inductive IoCause
  | connectionRefused
  | connectionReset
  | brokenPipe
  | unexpectedEof
  | writeZero
  | interrupted
  | wouldBlock
  | addressInUse
  | addressNotAvailable
  | notFound
  | alreadyExists
  | isADirectory
  | notADirectory
  | invalidData
  | other
  deriving DecidableEq, Repr

/-- A failed operation: its cause and the words that describe it. -/
structure IoFailure where
  cause : IoCause
  text : String
  deriving DecidableEq, Repr

namespace IoCause

/-- The text under which the system reports a cause; causes that no system call has are
described by the operation that meets them. -/
def systemText : IoCause → String
  | connectionRefused => "Connection refused (os error 111)"
  | connectionReset => "Connection reset by peer (os error 104)"
  | brokenPipe => "Broken pipe (os error 32)"
  | unexpectedEof => "unexpected end of file"
  | writeZero => "write zero"
  | interrupted => "Interrupted system call (os error 4)"
  | wouldBlock => "Resource temporarily unavailable (os error 11)"
  | addressInUse => "Address already in use (os error 98)"
  | addressNotAvailable => "Cannot assign requested address (os error 99)"
  | notFound => "No such file or directory (os error 2)"
  | alreadyExists => "File exists (os error 17)"
  | isADirectory => "Is a directory (os error 21)"
  | notADirectory => "Not a directory (os error 20)"
  | invalidData => "stream did not contain valid UTF-8"
  | other => "other error"

end IoCause

/-- The failure that the system reports for a cause. -/
def IoFailure.ofSystem (cause : IoCause) : IoFailure :=
  ⟨cause, cause.systemText⟩

end NodeHealth
