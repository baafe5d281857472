import Chip8.Config
import Chip8.Hardware.RandomSource
import Chip8.Machine.State

namespace Chip8

structure Machine where
  state : State
  config : Config
  random : RandomSource

namespace Machine

def start (config : Config) (random : RandomSource) : Machine :=
  ⟨.initial config.stackDepth, config, random⟩

inductive RunState where
  | running
  | waitingForKey (register : UInt8)
  deriving DecidableEq, Repr

def runState (m : Machine) : RunState :=
  match m.state.waiting with
  | none => .running
  | some register => .waitingForKey register

def isWaiting (m : Machine) : Bool := m.state.waiting.isSome

def soundActive (m : Machine) : Bool := m.state.timers.sound != 0

def screen (m : Machine) : Screen := m.state.screen

/-- What a relative jump adds its offset to. -/
def jumpOrigin (m : Machine) : UInt16 :=
  m.config.jumpBase.choose m.state.i m.state.v[0].toUInt16

end Machine

end Chip8
