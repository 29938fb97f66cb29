import PropFlow.Settings.File
import PropFlow.Toml.Printer

namespace PropFlow.Toml

def format : DocumentFormat where
  read := read
  write := write

end PropFlow.Toml
