import CportNode.Driver.Error

namespace CportNode

structure Script where
  initFault : Option DriverError
  connectedFault : Option DriverError
  disconnectedFault : Option DriverError
  handleFault : Option DriverError
  initRegisters : Option UInt8
  exitUnregisters : Option UInt16
  handleUnregisters : Option UInt16
  handleShutsDown : Bool
  deriving DecidableEq

end CportNode
