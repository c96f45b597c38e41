import FocalDesk.Library.Frames

/-! The messages between the display manager and the greeter, and how a request is read. -/
namespace FocalDesk.DisplayManager
open Library

def maxFrame : ℕ := 64 * 1024

inductive PowerAction where
  | suspend
  | hibernate
  | restart
  | powerOff
deriving DecidableEq

inductive Request where
  | createSession (username : String)
  | postAuthResponse (response : Option String)
  | cancelSession
  | power (action : PowerAction)
deriving DecidableEq

inductive AuthMessageStyle where
  | secret
  | visible
  | info
  | error
deriving DecidableEq

inductive Response where
  | authMessage (style : AuthMessageStyle) (message : String)
  | sessionStarted
  | authError (message : String)
deriving DecidableEq

/-- What an unfinished future of `recv` has read: a part of the length, or of the body. -/
inductive Recv where
  | len (bytes : List UInt8)
  | body (size : ℕ) (bytes : List UInt8)
deriving DecidableEq

inductive Polled where
  | pending (recv : Recv)
  | ready (body : List UInt8)
  | tooLarge

namespace Recv

def start : Recv := .len []

/-- The future asks the system for no more bytes than it needs. -/
def wanted : Recv → ℕ
  | .len bytes => 4 - bytes.length
  | .body size bytes => size - bytes.length

/-- The system has given it some more bytes. -/
def read (recv : Recv) (more : List UInt8) : Polled :=
  match recv with
  | .len bytes =>
    let bytes := bytes ++ more
    if bytes.length < 4 then .pending (.len bytes)
    else if maxFrame < leValue bytes then .tooLarge
    else if leValue bytes = 0 then .ready []
    else .pending (.body (leValue bytes) [])
  | .body size bytes =>
    let bytes := bytes ++ more
    if bytes.length < size then .pending (.body size bytes) else .ready bytes

end Recv

end FocalDesk.DisplayManager
